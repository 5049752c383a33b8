import VoxelStore.Proofs.Column.History
import VoxelStore.Proofs.SectionArray.Widths
/-!
# What becomes of a layer

`Layer.Becomes` lists what an operation can make of one layer, with the origin of the array where it gets
another one. `Op.becomes` says that there is nothing else, whatever the operation and wherever the layer; a
property of layers that each of these changes keeps is an invariant of every run (`runAll_each`).
-/

namespace VoxelStore

/-- The arrays that an operation brings to stand in the column. -/
def Column.Op.placed : Column.Op → List SectionArray
  | write _ writes => writes.flatMap ArrayWrite.placed
  | setBlocks _ data | replaceBlocks _ data => data.toList
  | _ => []

/-- The width is that of one of the arrays, or the one that the session has decided. -/
def WidthFrom (arrays : List SectionArray) (t : Session) (w : ArrayWidth) : Prop :=
  (∃ a ∈ arrays, a.width = w) ∨ t.width = some w

/-- What an operation that brings the arrays `placed` can make of a layer. -/
inductive Layer.Becomes (background : BlockState) (placed : List SectionArray) (t : Session) (l : Layer) :
    Layer → Prop
  | kept : Becomes background placed t l l
  | filled (v : BlockState) : Becomes background placed t l (.filled background v l.array?)
  | loaded {b : SectionArray} : WidthFrom (l.array?.toList ++ placed) t b.width →
    Becomes background placed t l (.present b)
  | emptied : Becomes background placed t l (.empty none)
  | trimmed {x : Layer} : l.trimmed? background = some x → Becomes background placed t l x
  | cleared : Becomes background placed t l l.cleared
  | withoutSpare : Becomes background placed t l l.withoutSpare

/-! ## Widths of arrays -/

theorem WidthFrom.mono {arrays arrays' : List SectionArray} {t : Session} {w : ArrayWidth}
    (h : WidthFrom arrays t w) (hsub : ∀ a ∈ arrays, a ∈ arrays') : WidthFrom arrays' t w := by
  rcases h with ⟨a, ha, hw⟩ | h
  · exact .inl ⟨a, hsub a ha, hw⟩
  · exact .inr h

namespace Layer

variable {background value : BlockState} {l : Layer} {b : SectionArray} {s t : Session}

/-- A spare keeps its width, and a new array has the width that is decided by then. -/
theorem refill_width {spare : Option SectionArray} (h : refill value spare s = .ok b t) :
    WidthFrom spare.toList t b.width ∧ ∀ w, s.width = some w → t.width = some w := by
  cases spare with
  | some a =>
    obtain ⟨hset, rfl⟩ := Run.lift_eq_ok.1 h
    exact ⟨.inl ⟨a, List.mem_cons_self, (SectionArray.setAll_eq_ok hset).1.symm⟩, fun _ hs => hs⟩
  | none =>
    obtain ⟨a, s₁, hcreate, h⟩ := Run.bind_eq_ok.1 h
    obtain ⟨hset, rfl⟩ := Run.lift_eq_ok.1 h
    obtain ⟨s₂, hcreate', hw⟩ := SectionArray.create_ok s
    cases hcreate.symm.trans hcreate'
    refine ⟨.inr ?_, fun w hs => ?_⟩
    · rw [(SectionArray.setAll_eq_ok hset).1]
      exact hw
    · rw [hw, Session.arrayWidth_of_width hs]

theorem materialize_width (h : l.materialize background s = .ok b t) :
    WidthFrom l.array?.toList t b.width ∧ ∀ w, s.width = some w → t.width = some w := by
  cases l with
  | empty spare => exact refill_width h
  | uniform value spare => exact refill_width h
  | present a =>
    obtain ⟨rfl, rfl⟩ := Run.pure_eq_ok.1 h
    exact ⟨.inl ⟨a, List.mem_cons_self, rfl⟩, fun _ hs => hs⟩

end Layer

namespace Column

variable {c c₁ c' : Column} {layer : Int} {x : Layer} {placed : List SectionArray} {s t : Session}

/-! ## One operation -/

/-- `c'` is `c` over no smaller range, with layers that became what they can become, in a session that keeps
a decided width. -/
structure Becomes (placed : List SectionArray) (c c' : Column) (s t : Session) : Prop where
  bottom : c'.bottom ≤ c.bottom
  top : c.top ≤ c'.top
  background : c'.background = c.background
  layer : ∀ k, (c.layer k).Becomes c.background placed t (c'.layer k)
  width : ∀ w, s.width = some w → t.width = some w

theorem Extends.becomes (h : Extends layer c c') (hw : t.width = s.width) : Becomes placed c c' s t where
  bottom := h.bottom ▸ Int.min_le_left ..
  top := h.top ▸ Int.le_max_left ..
  background := h.background
  layer k := by rw [h.layer]; exact .kept
  width _ hs := hw.trans hs

theorem Writes.becomes (h : Writes layer x c c') (hx : (c.layer layer).Becomes c.background placed t x)
    (hw : ∀ w, s.width = some w → t.width = some w) : Becomes placed c c' s t where
  bottom := h.bottom ▸ Int.min_le_left ..
  top := h.top ▸ Int.le_max_left ..
  background := h.background
  layer k := by
    rw [h.layer]
    split
    · next hk => rwa [hk]
    · exact .kept
  width := hw

theorem Maps.becomes {f : Layer → Layer} (h : Maps f c c')
    (hf : ∀ l : Layer, l.Becomes c.background placed t (f l)) (hw : t.width = s.width) :
    Becomes placed c c' s t where
  bottom := Int.le_of_eq h.bottom
  top := Int.le_of_eq h.top.symm
  background := h.background
  layer k := by rw [h.layer]; exact hf _
  width _ hs := hw.trans hs

theorem becomes_refl (c : Column) (s : Session) : Becomes placed c c s s :=
  ⟨Int.le_refl _, Int.le_refl _, rfl, fun _ => .kept, fun _ hs => hs⟩

theorem becomes_of_modifyLayer {write : SectionArray → Except Fault SectionArray}
    (h : c.modifyLayer layer write s = .ok c' t)
    (hwrite : ∀ a b, write a = .ok b → b.width = a.width ∨ ∃ x ∈ placed, x.width = b.width) :
    Becomes placed c c' s t := by
  obtain ⟨a, b, s₁, hput, hs₁, hmat, hb⟩ := modifyLayer_eq_ok h
  obtain ⟨hfrom, hkeep⟩ := Layer.materialize_width hmat
  refine hput.becomes (.loaded ?_) fun w hs => hkeep w (hs₁.trans hs)
  rcases hwrite a b hb with hw | ⟨x, hx, hw⟩
  · rw [hw]
    exact hfrom.mono fun y hy => List.mem_append_left _ hy
  · exact .inl ⟨x, List.mem_append_right _ hx, hw⟩

theorem becomes_of_replaceBlocks {data : Option SectionArray} {before : Option SectionArray}
    (h : c.replaceBlocks layer data s = .ok (before, c') t) : Becomes data.toList c c' s t := by
  obtain ⟨c₁, t₁, h₁, hput, hw⟩ := replaceBlocks_ok c layer data s
  cases h.symm.trans h₁
  refine hput.becomes ?_ fun w hs => hw.trans hs
  cases data with
  | none => exact .emptied
  | some a => exact .loaded (.inl ⟨a, List.mem_append_right _ List.mem_cons_self, rfl⟩)

/-- An operation makes of no layer anything else than is listed. -/
theorem Op.becomes {op : Op} (h : op.run c s = .ok c' t) : Becomes op.placed c c' s t := by
  cases op with
  | extendTo layer =>
    obtain ⟨he, hw⟩ := reach_eq_ok h
    exact he.becomes hw
  | setBlock p value =>
    rcases setBlock_eq_ok h with ⟨-, rfl, rfl⟩ | h
    · exact becomes_refl _ _
    · exact becomes_of_modifyLayer h fun a b hset => .inl (SectionArray.set_eq_ok hset).1
  | fillSection layer value =>
    obtain ⟨c₁, t₁, h₁, hput, hw⟩ := fillSection_ok c layer value s
    cases h.symm.trans h₁
    exact hput.becomes (.filled value) fun w hs => hw.trans hs
  | write layer writes => exact becomes_of_modifyLayer h fun _ _ => ArrayWrite.runAll_width
  | setBlocks layer data =>
    obtain ⟨p, hrun, rfl⟩ := Run.map_eq_ok.1 h
    exact becomes_of_replaceBlocks hrun
  | replaceBlocks layer data =>
    obtain ⟨p, hrun, rfl⟩ := Run.map_eq_ok.1 h
    exact becomes_of_replaceBlocks hrun
  | trim layer =>
    obtain ⟨rfl, rfl⟩ := Run.pure_eq_ok.1 h
    rcases trim_cases c layer with ⟨-, htrim⟩ | ⟨x, hx, -, -, hput⟩
    · rw [htrim]
      exact becomes_refl _ _
    · exact hput.becomes (.trimmed hx) fun _ hs => hs
  | trimAll =>
    obtain ⟨rfl, rfl⟩ := Run.pure_eq_ok.1 h
    refine (maps_trimAll c).becomes (fun l => ?_) rfl
    cases hx : l.trimmed? c.background with
    | none => exact .kept
    | some x => exact .trimmed hx
  | sectionLock layer =>
    obtain ⟨lock, c₁, t₁, h₁, he, hw⟩ := sectionLock_ok c layer s
    cases h.symm.trans (Run.map_of_ok h₁ Prod.snd)
    exact he.becomes hw
  | reset =>
    obtain ⟨rfl, rfl⟩ := Run.pure_eq_ok.1 h
    exact (maps_reset c).becomes (fun _ => .cleared) rfl
  | copy =>
    obtain ⟨c₁, t₁, h₁, hm, hw⟩ := copy_ok c s
    cases h.symm.trans h₁
    exact hm.becomes (fun _ => .withoutSpare) hw

/-! ## Any number of operations -/

theorem runAll_grows {ops : List Op} (h : runAll ops c s = .ok c' t) :
    c'.bottom ≤ c.bottom ∧ c.top ≤ c'.top ∧ ∀ w, s.width = some w → t.width = some w := by
  induction ops generalizing c s with
  | nil =>
    obtain ⟨rfl, rfl⟩ := Run.pure_eq_ok.1 h
    exact ⟨Int.le_refl _, Int.le_refl _, fun _ hs => hs⟩
  | cons op ops ih =>
    obtain ⟨c₁, s₁, hop, h⟩ := Run.bind_eq_ok.1 h
    have hbecomes := Op.becomes hop
    obtain ⟨hb, ht, hw⟩ := ih h
    exact ⟨Int.le_trans hb hbecomes.bottom, Int.le_trans hbecomes.top ht,
      fun w hs => hw w (hbecomes.width w hs)⟩

/-- What holds of all layers, and is kept by every change that an operation of the run can make, still holds
of all layers after the run. Along the run the session decides for no other width than in the end. -/
theorem runAll_each {Q : Layer → Prop} {ops : List Op} (h : runAll ops c s = .ok c' t)
    (hkeep : ∀ op ∈ ops, ∀ t₁ : Session, (∀ w, t₁.width = some w → t.width = some w) →
      ∀ l l', Q l → l.Becomes c.background op.placed t₁ l' → Q l')
    (hc : ∀ k, Q (c.layer k)) : c'.background = c.background ∧ ∀ k, Q (c'.layer k) := by
  induction ops generalizing c s with
  | nil =>
    obtain ⟨rfl, rfl⟩ := Run.pure_eq_ok.1 h
    exact ⟨rfl, hc⟩
  | cons op ops ih =>
    obtain ⟨c₁, s₁, hop, h⟩ := Run.bind_eq_ok.1 h
    have hbecomes := Op.becomes hop
    have hc₁ : ∀ k, Q (c₁.layer k) := fun k =>
      hkeep op List.mem_cons_self s₁ (runAll_grows h).2.2 _ _ (hc k) (hbecomes.layer k)
    rw [← hbecomes.background] at hkeep ⊢
    exact ih h (fun x hx => hkeep x (List.mem_cons_of_mem op hx)) hc₁

/-! ## Every history -/

variable {bottom top : Int} {background : BlockState}

/-- What holds of an empty layer, and is kept by every change of a layer, holds of all layers of every
column. -/
theorem History.each {Q : Layer → Prop} {ops : List Op} (h : History bottom top background ops c)
    (hblank : Q (.empty none))
    (hkeep : ∀ placed t l l', Q l → Layer.Becomes background placed t l l' → Q l') :
    c.background = background ∧ ∀ k, Q (c.layer k) := by
  induction h with
  | create h =>
    obtain ⟨-, -, hback, hlayer, -⟩ := create_eq_ok h
    exact ⟨hback, fun k => hlayer k ▸ hblank⟩
  | step _ hrun ih =>
    obtain ⟨hback, hall⟩ := ih
    have hbecomes := Op.becomes hrun
    refine ⟨hbecomes.background.trans hback, fun k => ?_⟩
    have hlayer := hbecomes.layer k
    rw [hback] at hlayer
    exact hkeep _ _ _ _ (hall k) hlayer

theorem History.background_eq {ops : List Op} (h : History bottom top background ops c) :
    c.background = background := by
  have htrue := h.each (Q := fun _ => True) trivial
  exact (htrue fun _ _ _ _ _ _ => trivial).1

end Column

end VoxelStore
