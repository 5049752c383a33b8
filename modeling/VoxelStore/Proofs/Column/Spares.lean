import VoxelStore.Proofs.Column.Changes
import VoxelStore.Proofs.Palette.Alike
/-!
# What is seen of spares

A spare is filled anew before it serves, so nobody sees what it holds. Its width stays, though: an array that is
made from a spare has the width of the spare, and not that of the session. A copy keeps no spares, and
the two can be told apart exactly if there is a spare of another width than the session makes
(`copy_indistinguishable_iff`). Such a spare can only come from an array that was brought in.
-/

namespace VoxelStore

/-- The array or the spare of the layer, if it has one, has the width `w`. -/
def Layer.OfWidth (w : ArrayWidth) (l : Layer) : Prop := ∀ a, l.array? = some a → a.width = w

/-! ## Layers -/

namespace Layer

variable {w : ArrayWidth} {l l' : Layer} {background v : BlockState} {placed : List SectionArray} {s t : Session}
  {spare : Option SectionArray}

theorem ofWidth_of_array (h : l.OfWidth w) (hl : ∀ a, l'.array? = some a → l.array? = some a) :
    l'.OfWidth w := fun a ha => h a (hl a ha)

theorem array?_filled (background value : BlockState) (spare : Option SectionArray) :
    (filled background value spare).array? = spare := by
  unfold filled
  split <;> rfl

/-- Where all arrays that come in have one width, and the session makes no others, all layers keep to it. -/
theorem OfWidth.becomes (h : l.OfWidth w) (hplaced : ∀ a ∈ placed, a.width = w)
    (ht : ∀ v, t.width = some v → v = w) (hl : l.Becomes background placed t l') : l'.OfWidth w := by
  cases hl with
  | kept => exact h
  | filled v => exact ofWidth_of_array h fun a ha => (array?_filled background v _).symm.trans ha
  | loaded hfrom =>
    rintro b ⟨⟩
    rcases hfrom with ⟨a, ha, hw⟩ | hw
    · rw [← hw]
      rcases List.mem_append.1 ha with ha | ha
      · exact h a (Option.mem_toList.1 ha)
      · exact hplaced a ha
    · exact ht _ hw
  | emptied => rintro a ⟨⟩
  | trimmed hx =>
    cases l with
    | present blocks =>
      obtain ⟨v, -, rfl⟩ := Option.map_eq_some_iff.1 hx
      exact ofWidth_of_array h fun a ha => (array?_filled background v _).symm.trans ha
    | empty spare => cases hx
    | uniform v spare => cases hx
  | cleared => exact ofWidth_of_array h fun _ ha => ha
  | withoutSpare =>
    cases l with
    | present blocks => exact h
    | empty spare => rintro a ⟨⟩
    | uniform v spare => rintro a ⟨⟩

/-- The array that the layer keeps without holding any values in it. -/
def spare? : Layer → Option SectionArray
  | empty spare | uniform _ spare => spare
  | present _ => none

theorem array?_of_spare {a : SectionArray} (h : l.spare? = some a) : l.array? = some a := by
  cases l with
  | empty spare => exact h
  | uniform v spare => exact h
  | present b => cases h

theorem spare?_withoutSpare (l : Layer) : l.withoutSpare.spare? = none := by cases l <;> rfl

theorem spareWidth_of_forall (h : ∀ a, spare = some a → a.width = w) : spareWidth w spare = w := by
  cases spare with
  | none => rfl
  | some a => exact h a rfl

/-- A spare of the width of the session is as good as none. -/
theorem alike_withoutSpare (h : ∀ a, l.spare? = some a → a.width = w) : l.Alike (.equal w) l.withoutSpare := by
  cases l with
  | empty spare => exact .empty (spareWidth_of_forall h)
  | uniform v spare => exact .uniform (WidthPairing.shared_equal w v) (spareWidth_of_forall h)
  | present a => exact alike_refl (.present a)

/-- The value that a layer with a spare is filled with, whether the spare stays or goes. -/
theorem exists_refill {a : SectionArray} (h : l.spare? = some a) (background : BlockState) :
    ∃ v, l.materialize background = refill v (some a) ∧ l.withoutSpare.materialize background = refill v none := by
  cases l with
  | empty spare =>
    cases h
    exact ⟨background, rfl, rfl⟩
  | uniform v spare =>
    cases h
    exact ⟨v, rfl, rfl⟩
  | present b => cases h

/-- Filling gives an array of the width of the spare, if this width holds the value. -/
theorem refill_of_holds (hs : s.arrayWidth = w) (hv : (spareWidth w spare).Holds v) :
    ∃ b t, refill v spare s = .ok b t ∧ b.width = spareWidth w spare := by
  cases spare with
  | some a =>
    obtain ⟨b, hb⟩ := SectionArray.setAll_of_holds (a := a) hv
    exact ⟨b, s, Run.lift_of_ok hb, (SectionArray.setAll_eq_ok hb).1⟩
  | none =>
    obtain ⟨t, hcreate, -⟩ := SectionArray.create_ok s
    rw [hs] at hcreate
    obtain ⟨b, hb⟩ := SectionArray.setAll_of_holds (a := .blank w) hv
    exact ⟨b, t, (Run.bind_of_ok hcreate _).trans (Run.lift_of_ok hb), (SectionArray.setAll_eq_ok hb).1⟩

theorem refill_of_not_holds (hs : s.arrayWidth = w) (hv : ¬(spareWidth w spare).Holds v) :
    ∃ t, refill v spare s = .error (.ordinalTooWide v) t := by
  cases spare with
  | some a =>
    have hfault := SectionArray.setAll_of_not_holds (a := a) hv
    exact ⟨s, by rw [refill, hfault]; rfl⟩
  | none =>
    obtain ⟨t, hcreate, -⟩ := SectionArray.create_ok s
    rw [hs] at hcreate
    have hfault := SectionArray.setAll_of_not_holds (a := .blank w) hv
    exact ⟨t, (Run.bind_of_ok hcreate _).trans (by rw [hfault]; rfl)⟩

end Layer

/-- Of two different widths one is wide, and holds every ordinal. -/
theorem ArrayWidth.holds_or_of_ne {x y : ArrayWidth} (h : x ≠ y) (v : BlockState) : x.Holds v ∨ y.Holds v := by
  cases x with
  | wide => exact .inl (holds_wide v)
  | narrow =>
    cases y with
    | wide => exact .inr (holds_wide v)
    | narrow => exact absurd rfl h

namespace Column

variable {c c' : Column} {w : ArrayWidth} {k : Int} {v : BlockState} {bottom top : Int} {background : BlockState}
  {ops : List Op} {s t : Session} {spare : Option SectionArray}

/-! ## Requests -/

/-- Columns that differ in their spares only, and not in their widths, answer a request as if they were the same
column. -/
theorem Request.serve_alike (r : Request) (h : c.Alike (.equal w) c') :
    Run.Alike (WidthPairing.equal w).Sessions (fun p q => p.1 = q.1 ∧ p.2.Alike (.equal w) q.2)
      (r.serve c) (r.serve c') := by
  cases r with
  | read r => exact .pure ⟨(r.answer_alike h).eq, h⟩
  | change op => exact (op.alike_refl.serve h).mono fun _ _ hpq => ⟨hpq.1.eq, hpq.2⟩
  | encode encoder layer g =>
    refine (Encoder.encodeLayer_alike (WidthPairing.logFree_sessions _) encoder.alike_refl h layer g).bind
      fun p q hpq => .pure ⟨?_, h⟩
    rw [PalettedSection.eq_of_alike hpq.1]

/-- A layer that is filled is loaded into an array of the width of its spare. -/
theorem transcript_load_of_holds (hmat : (c.layer k).materialize c.background = Layer.refill v spare)
    (hs : s.arrayWidth = w) (hv : (Layer.spareWidth w spare).Holds v) :
    ∃ b, b.width = Layer.spareWidth w spare ∧
      Run.transcript Request.serve [.load k] c s = ([.array (some b)], none) := by
  obtain ⟨c₁, s₁, hreach, he, hw⟩ := reach_ok c k s
  have hs₁ : s₁.arrayWidth = w := by rw [← hs, Session.arrayWidth, Session.arrayWidth, hw]
  obtain ⟨b, t, hb, hwidth⟩ := Layer.refill_of_holds hs₁ hv
  rw [← hmat, ← he.layer, ← he.background] at hb
  have hload : c.load k s = .ok (b, c₁.putLayer k (.present b)) t :=
    (Run.bind_of_ok hreach _).trans (Run.bind_of_ok hb _)
  have hmodify : c.modifyLayer k (ArrayWrite.runAll []) s =
      .ok ((c₁.putLayer k (.present b)).putLayer k (.present b)) t := Run.bind_of_ok hload _
  have hpeek : ((c₁.putLayer k (.present b)).putLayer k (.present b)).peek k = some b := by
    have hmem := he.mem
    rw [← bottom_putLayer c₁ k (.present b), ← top_putLayer c₁ k (.present b)] at hmem
    rw [peek, layer_putLayer _ hmem, if_pos rfl, Layer.blocks?]
  have hserve : Request.serve c (.load k) s = .ok (.array (some b), _) t :=
    (Run.bind_of_ok hmodify _).trans (by rw [hpeek]; rfl)
  exact ⟨b, hwidth, by rw [Run.transcript, hserve]; rfl⟩

/-- Where the width of the spare does not hold the value of the layer, loading faults. -/
theorem transcript_load_of_not_holds (hmat : (c.layer k).materialize c.background = Layer.refill v spare)
    (hs : s.arrayWidth = w) (hv : ¬(Layer.spareWidth w spare).Holds v) :
    Run.transcript Request.serve [.load k] c s = ([], some (.ordinalTooWide v)) := by
  obtain ⟨c₁, s₁, hreach, he, hw⟩ := reach_ok c k s
  have hs₁ : s₁.arrayWidth = w := by rw [← hs, Session.arrayWidth, Session.arrayWidth, hw]
  obtain ⟨t, hfault⟩ := Layer.refill_of_not_holds hs₁ hv
  rw [← hmat, ← he.layer, ← he.background] at hfault
  have hload : c.load k s = .error (.ordinalTooWide v) t :=
    (Run.bind_of_ok hreach _).trans (Run.bind_of_error hfault _)
  have hserve : Request.serve c (.load k) s = .error (.ordinalTooWide v) t :=
    Run.bind_of_error (Run.bind_of_error hload _) _
  rw [Run.transcript, hserve]

/-! ## Columns and their copies -/

/-- All spares have the width `w`. -/
def SparesOfWidth (w : ArrayWidth) (c : Column) : Prop := ∀ k a, (c.layer k).spare? = some a → a.width = w

theorem alike_of_withoutSpare (hm : Maps Layer.withoutSpare c c') (h : c.SparesOfWidth w) :
    c.Alike (.equal w) c' where
  bottom := hm.bottom
  top := hm.top
  background := hm.background
  shared := WidthPairing.shared_equal w _
  layer k := by rw [hm.layer]; exact Layer.alike_withoutSpare (h k)

/-- A layer with a spare of another width is loaded in one way, and in another way without the spare. -/
theorem transcript_load_ne {a : SectionArray} (hm : Maps Layer.withoutSpare c c')
    (hspare : (c.layer k).spare? = some a) (hne : a.width ≠ w) (hs : s.arrayWidth = w) (ht : t.arrayWidth = w) :
    Run.transcript Request.serve [.load k] c s ≠ Run.transcript Request.serve [.load k] c' t := by
  obtain ⟨v, hmat, hmat'⟩ := Layer.exists_refill hspare c.background
  rw [← hm.layer, ← hm.background] at hmat'
  intro heq
  by_cases ha : a.width.Holds v
  · obtain ⟨b, hb, hload⟩ := transcript_load_of_holds hmat hs ha
    by_cases hw : w.Holds v
    · obtain ⟨b', hb', hload'⟩ := transcript_load_of_holds hmat' ht hw
      rw [hload, hload'] at heq
      cases heq
      exact hne (hb.symm.trans hb')
    · rw [hload, transcript_load_of_not_holds hmat' ht hw] at heq
      cases heq
  · obtain ⟨b', -, hload'⟩ := transcript_load_of_holds hmat' ht ((ArrayWidth.holds_or_of_ne hne v).resolve_left ha)
    rw [transcript_load_of_not_holds hmat hs ha, hload'] at heq
    cases heq

/-! ## Histories -/

/-- `HistoryIn w bottom top background ops c`: the operations `ops` lead from a new column to `c` in sessions
that decide for no other width than `w`. The arrays that the operations bring may be of any width. -/
inductive HistoryIn (w : ArrayWidth) (bottom top : Int) (background : BlockState) : List Op → Column → Prop
  | create {c : Column} {s t : Session} : create bottom top background s = .ok c t →
      HistoryIn w bottom top background [] c
  | step {ops : List Op} {op : Op} {c c' : Column} {s t : Session} : HistoryIn w bottom top background ops c →
      op.run c s = .ok c' t → (∀ v, t.width = some v → v = w) →
      HistoryIn w bottom top background (ops ++ [op]) c'

/-- Where the arrays that were brought have the width of the sessions, all layers do. -/
theorem HistoryIn.ofWidth (h : HistoryIn w bottom top background ops c)
    (hplaced : ∀ op ∈ ops, ∀ a ∈ op.placed, a.width = w) : ∀ k, (c.layer k).OfWidth w := by
  induction h with
  | create h =>
    intro k
    rw [(create_eq_ok h).2.2.2.1]
    rintro a ⟨⟩
  | @step ops op c c' s t _ hrun hwidth ih =>
    intro k
    have hlayer := ih (fun x hx => hplaced x (List.mem_append_left _ hx)) k
    exact hlayer.becomes (hplaced op (List.mem_append_right _ List.mem_cons_self)) hwidth
      ((Op.becomes hrun).layer k)

/-- A layer that was given an array and then reset keeps the array as a spare. -/
theorem exists_spare (w : ArrayWidth) (a : SectionArray) :
    ∃ c, HistoryIn w 0 0 0 [.setBlocks 0 (some a), .reset] c ∧ c.background = 0 ∧ c.layer 0 = .empty (some a) := by
  obtain ⟨c₀, s, hcreate⟩ := create_ok 0 (Int.le_refl 0) {}
  obtain ⟨-, -, hback, -, hwidth⟩ := create_eq_ok hcreate
  obtain ⟨c₁, t, hset, hput, hwidth'⟩ := setBlocks_ok c₀ 0 (some a) s
  have hset : (Op.setBlocks 0 (some a)).run c₀ s = .ok c₁ t := hset
  have hreset : Op.reset.run c₁ t = .ok c₁.reset t := rfl
  have hundecided : ∀ v, t.width = some v → v = w := fun v hv => by
    rw [hwidth'.trans hwidth] at hv
    cases hv
  refine ⟨c₁.reset, ((HistoryIn.create hcreate).step hset hundecided).step hreset hundecided, ?_, ?_⟩
  · rw [(maps_reset c₁).background, hput.background, hback]
  · rw [(maps_reset c₁).layer, hput.layer, if_pos rfl]
    rfl

/-- A column and its copy, which has no spares, answer every sequence of requests alike exactly if all spares
have the width of the arrays that the session makes. Whoever brings arrays of this width only leaves
no other spares. -/
theorem copy_indistinguishable_iff (h : HistoryIn w bottom top background ops c) :
    ((∀ op ∈ ops, ∀ a ∈ op.placed, a.width = w) → c.SparesOfWidth w) ∧
      ∀ s : Session, ∃ c' t, c.copy s = .ok c' t ∧ (∀ k, (c'.layer k).spare? = none) ∧
        ((∀ (requests : List Request) (s₁ s₂ : Session), s₁.arrayWidth = w → s₂.arrayWidth = w →
          Run.transcript Request.serve requests c s₁ = Run.transcript Request.serve requests c' s₂) ↔
            c.SparesOfWidth w) := by
  refine ⟨fun hplaced k a ha => h.ofWidth hplaced k a (Layer.array?_of_spare ha), fun s => ?_⟩
  obtain ⟨c', t, hcopy, hm, -⟩ := copy_ok c s
  refine ⟨c', t, hcopy, fun k => by rw [hm.layer, Layer.spare?_withoutSpare], fun hsame k a ha => ?_, ?_⟩
  · have hw : Session.arrayWidth { width := some w } = w := rfl
    exact Classical.byContradiction fun hne => transcript_load_ne hm ha hne hw hw (hsame _ _ _ hw hw)
  · intro hspares requests s₁ s₂ hs₁ hs₂
    exact Run.transcript_congr requests (fun r _ _ hxy => r.serve_alike hxy) (alike_of_withoutSpare hm hspares)
      ⟨hs₁, hs₂⟩

/-- Of a wide spare that held ordinals above 65535 nothing is seen in a session that makes wide arrays. -/
theorem copy_indistinguishable_iff_wideSpare :
    let a := SectionArray.constant .wide 70000 (ArrayWidth.holds_wide _)
    ∃ c, HistoryIn .wide 0 0 0 [.setBlocks 0 (some a), .reset] c ∧ c.layer 0 = .empty (some a) ∧
      ∃ c' t, c.copy {} = .ok c' t ∧ (c'.layer 0).spare? = none ∧
        let requests := [.read (.getBlock ⟨1, 2, 3⟩), .change (.setBlock ⟨1, 2, 3⟩ 80000), .load 0,
          .change (.fillSection 0 90000), .load 0, .change .trimAll]
        Run.transcript Request.serve requests c {} = Run.transcript Request.serve requests c' {} := by
  intro a
  obtain ⟨c, hc, -, hlayer⟩ := exists_spare .wide a
  obtain ⟨hplaced, hcopy⟩ := copy_indistinguishable_iff hc
  have hspares : c.SparesOfWidth .wide := hplaced (by simp [Op.placed, a, SectionArray.constant])
  obtain ⟨c', t, hrun, hnone, hsame⟩ := hcopy {}
  exact ⟨c, hc, hlayer, c', t, hrun, hnone 0, hsame.2 hspares _ {} {} rfl rfl⟩

/-- A narrow spare is seen in a session that makes wide arrays: the layer is loaded into a narrow array, and in
the copy into a wide one. -/
theorem copy_distinguished_narrowSpare :
    ∃ c, HistoryIn .wide 0 0 0 [.setBlocks 0 (some (.blank .narrow)), .reset] c ∧
      ∃ c' t, c.copy {} = .ok c' t ∧ ∃ a b : SectionArray, a.width = .narrow ∧ b.width = .wide ∧
        Run.transcript Request.serve [.load 0] c {} = ([.array (some a)], none) ∧
        Run.transcript Request.serve [.load 0] c' {} = ([.array (some b)], none) := by
  obtain ⟨c, hc, hback, hlayer⟩ := exists_spare .wide (.blank .narrow)
  obtain ⟨c', t, hcopy, hm, -⟩ := copy_ok c {}
  have hmat : (c.layer 0).materialize c.background = Layer.refill 0 (some (.blank .narrow)) := by
    rw [hlayer, hback, Layer.materialize]
  have hmat' : (c'.layer 0).materialize c'.background = Layer.refill 0 none := by
    rw [hm.layer, hm.background, hlayer, hback, Layer.withoutSpare, Layer.materialize]
  obtain ⟨a, ha, hload⟩ := transcript_load_of_holds hmat (w := .wide) (s := {}) rfl (ArrayWidth.holds_zero _)
  obtain ⟨b, hb, hload'⟩ := transcript_load_of_holds hmat' (w := .wide) (s := {}) rfl (ArrayWidth.holds_zero _)
  exact ⟨c, hc, c', t, hcopy, a, b, ha, hb, hload, hload'⟩

end Column

end VoxelStore
