import VoxelStore.Proofs.Column.Effects
/-!
# Columns of one registry

In a session whose width was decided by a registry of `n` states, a column that holds ordinals below `n`
only, and arrays and spares of that width only, never faults on a further ordinal below `n`, and stays
such a column. Spares need the width and nothing else: what they hold is never read.
-/

namespace VoxelStore

/-- The width of the session was decided by a registry of `n` states. -/
def Session.Serves (n : UInt32) (s : Session) : Prop := s.width = some (ArrayWidth.forStateCount n)

/-- The spare has the width that serves a registry of `n` states. -/
def SpareFits (n : UInt32) (spare : Option SectionArray) : Prop :=
  ∀ a, spare = some a → a.width = ArrayWidth.forStateCount n

namespace Layer

/-- The layer holds ordinals below `n` only, and its array or spare has the width for them. -/
def InRegistry (n : UInt32) : Layer → Prop
  | empty spare => SpareFits n spare
  | uniform value spare => value < n ∧ SpareFits n spare
  | present blocks => blocks.InRegistry n

variable {n : UInt32} {l x : Layer} {background value : BlockState} {s : Session}

theorem spareFits_none : SpareFits n none := by rintro a ⟨⟩

theorem spareFits_array (h : l.InRegistry n) : SpareFits n l.array? := by
  cases l with
  | empty spare => exact h
  | uniform value spare => exact h.2
  | present blocks =>
    rintro a ⟨⟩
    exact h.width

theorem inRegistry_filled {spare : Option SectionArray} (hv : value < n) (hs : SpareFits n spare) :
    (filled background value spare).InRegistry n := by
  unfold filled
  split
  · exact hs
  · exact ⟨hv, hs⟩

theorem inRegistry_cleared (h : l.InRegistry n) : l.cleared.InRegistry n := spareFits_array h

theorem inRegistry_withoutSpare (h : l.InRegistry n) : l.withoutSpare.InRegistry n := by
  cases l with
  | empty spare => exact spareFits_none
  | uniform value spare => exact ⟨h.1, spareFits_none⟩
  | present blocks => exact h

theorem inRegistry_trimmed (h : l.InRegistry n) (hx : l.trimmed? background = some x) : x.InRegistry n := by
  cases l with
  | present blocks =>
    obtain ⟨v, hv, rfl⟩ := Option.map_eq_some_iff.1 hx
    -- the value of the trimmed layer was in its first cell
    have hcell := h.cells 0 (by decide)
    simp only [SectionArray.cells_of_uniform hv, Vector.getElem_replicate] at hcell
    exact inRegistry_filled hcell (by rintro a ⟨⟩; exact h.width)
  | empty spare => cases hx
  | uniform value spare => cases hx

theorem refill_inRegistry {spare : Option SectionArray} (hs : s.Serves n) (hv : value < n)
    (h : SpareFits n spare) : ∃ b, refill value spare s = .ok b s ∧ b.InRegistry n := by
  have hcells : ∀ {b : SectionArray}, b.cells = Vector.replicate sectionBlocks value →
      ∀ i (hi : i < sectionBlocks), b.cells[i] < n := by
    intro b hb i hi
    simp only [hb, Vector.getElem_replicate]
    exact hv
  cases spare with
  | some a =>
    obtain ⟨b, hb⟩ := SectionArray.setAll_of_holds (SectionArray.InRegistry.holds (h a rfl) hv)
    obtain ⟨hw, hc⟩ := SectionArray.setAll_eq_ok hb
    exact ⟨b, Run.lift_of_ok hb, hw.trans (h a rfl), hcells hc⟩
  | none =>
    obtain ⟨b, hb, hw⟩ := SectionArray.filled_of_holds hs (ArrayWidth.holds_of_lt_stateCount hv)
    exact ⟨b, hb, hw, hcells (SectionArray.filled_eq_ok hb)⟩

/-- A layer of the registry always gets its array. -/
theorem materialize_inRegistry (hs : s.Serves n) (hb : background < n) (h : l.InRegistry n) :
    ∃ b, l.materialize background s = .ok b s ∧ b.InRegistry n := by
  cases l with
  | empty spare => exact refill_inRegistry hs hb h
  | uniform value spare => exact refill_inRegistry hs h.1 h.2
  | present blocks => exact ⟨blocks, rfl, h⟩

end Layer

namespace Column

/-- The background and all layers stay within a registry of `n` states. -/
structure InRegistry (n : UInt32) (c : Column) : Prop where
  background : c.background < n
  layer : ∀ k, (c.layer k).InRegistry n

variable {n : UInt32} {c c' : Column} {s : Session}

/-! ## The three kinds of effect keep a column in its registry -/

theorem Extends.inRegistry {layer : Int} (h : Extends layer c c') (hc : c.InRegistry n) : c'.InRegistry n where
  background := h.background ▸ hc.background
  layer k := by rw [h.layer k]; exact hc.layer k

theorem Writes.inRegistry {layer : Int} {x : Layer} (h : Writes layer x c c') (hc : c.InRegistry n)
    (hx : x.InRegistry n) : c'.InRegistry n where
  background := h.background ▸ hc.background
  layer k := by
    rw [h.layer k]
    split
    · exact hx
    · exact hc.layer k

theorem Maps.inRegistry {f : Layer → Layer} (h : Maps f c c') (hc : c.InRegistry n)
    (hf : ∀ l, l.InRegistry n → (f l).InRegistry n) : c'.InRegistry n where
  background := h.background ▸ hc.background
  layer k := by rw [h.layer k]; exact hf _ (hc.layer k)

theorem inRegistry_create {bottom top : Int} {background : BlockState} {t : Session}
    (h : create bottom top background s = .ok c t) (hb : background < n) : c.InRegistry n := by
  obtain ⟨-, -, hg, hl, -⟩ := create_eq_ok h
  exact ⟨hg ▸ hb, fun k => by rw [hl k]; exact Layer.spareFits_none⟩

/-! ## Operations that cannot fault -/

theorem replaceBlocks_inRegistry (hs : s.Serves n) (hc : c.InRegistry n) (layer : Int)
    {data : Option SectionArray} (hd : ∀ a, data = some a → a.InRegistry n) :
    ∃ c' t, c.replaceBlocks layer data s = .ok (c.peek layer, c') t ∧ c'.InRegistry n ∧ t.Serves n := by
  obtain ⟨c', t, h, hput, hw⟩ := replaceBlocks_ok c layer data s
  refine ⟨c', t, h, hput.inRegistry hc ?_, hw.trans hs⟩
  cases data with
  | none => exact Layer.spareFits_none
  | some a => exact hd a rfl

theorem fillSection_inRegistry (hs : s.Serves n) (hc : c.InRegistry n) (layer : Int) {value : BlockState}
    (hv : value < n) :
    ∃ c' t, c.fillSection layer value s = .ok c' t ∧ c'.InRegistry n ∧ t.Serves n := by
  obtain ⟨c', t, h, hput, hw⟩ := fillSection_ok c layer value s
  exact ⟨c', t, h, hput.inRegistry hc (Layer.inRegistry_filled hv (Layer.spareFits_array (hc.layer layer))),
    hw.trans hs⟩

theorem load_inRegistry (hs : s.Serves n) (hc : c.InRegistry n) (layer : Int) :
    ∃ b c' t, c.load layer s = .ok (b, c') t ∧ b.InRegistry n ∧ c'.InRegistry n ∧ t.Serves n := by
  -- the array is made after growth, in another session of the same width
  have hmat : ∀ s₁ : Session, s₁.Serves n →
      ∃ b, (c.layer layer).materialize c.background s₁ = .ok b s₁ ∧ b.InRegistry n := fun s₁ hs₁ =>
    Layer.materialize_inRegistry hs₁ hc.background (hc.layer layer)
  obtain ⟨b, c', t, h⟩ := load_of_materialize c layer s fun s₁ hw => by
    obtain ⟨b, hb, -⟩ := hmat s₁ (hw.trans hs)
    exact ⟨b, s₁, hb⟩
  obtain ⟨hput, s₁, hw, hb⟩ := load_eq_ok h
  obtain ⟨b', hb', hreg⟩ := hmat s₁ (hw.trans hs)
  rw [hb] at hb'
  cases hb'
  exact ⟨b, c', t, h, hreg, hput.inRegistry hc hreg, hw.trans hs⟩

theorem modifyLayer_inRegistry (hs : s.Serves n) (hc : c.InRegistry n) (layer : Int)
    {write : SectionArray → Except Fault SectionArray}
    (hwrite : ∀ a : SectionArray, a.InRegistry n → ∃ b, write a = .ok b ∧ b.InRegistry n) :
    ∃ c' t, c.modifyLayer layer write s = .ok c' t ∧ c'.InRegistry n ∧ t.Serves n := by
  obtain ⟨a, c₁, t, hload, ha, hc₁, ht⟩ := load_inRegistry hs hc layer
  obtain ⟨b, hb, hreg⟩ := hwrite a ha
  refine ⟨_, t, (Run.bind_of_ok hload _).trans ((Run.bind_of_ok (Run.lift_of_ok hb) _).trans rfl), ?_, ht⟩
  exact ((load_eq_ok hload).1.put (.present b)).inRegistry hc hreg

theorem setBlock_inRegistry (hs : s.Serves n) (hc : c.InRegistry n) (p : Position) {value : BlockState}
    (hv : value < n) : ∃ c' t, c.setBlock p value s = .ok c' t ∧ c'.InRegistry n ∧ t.Serves n := by
  unfold setBlock
  split
  · exact ⟨c, s, rfl, hc, hs⟩
  · exact modifyLayer_inRegistry hs hc p.layer fun a ha =>
      ArrayWrite.run_inRegistry (x := .set p.blockIndex value) ⟨p.blockIndex.isLt, hv⟩ ha

theorem sectionLock_inRegistry (hs : s.Serves n) (hc : c.InRegistry n) (layer : Int) :
    ∃ lock c' t, c.sectionLock layer s = .ok (lock, c') t ∧ c'.InRegistry n ∧ t.Serves n := by
  obtain ⟨lock, c', t, h, he, hw⟩ := sectionLock_ok c layer s
  exact ⟨lock, c', t, h, he.inRegistry hc, hw.trans hs⟩

theorem inRegistry_trimAll (hc : c.InRegistry n) : c.trimAll.2.InRegistry n :=
  (maps_trimAll c).inRegistry hc fun l hl => by
    cases h : l.trimmed? c.background with
    | none => exact hl
    | some x => exact Layer.inRegistry_trimmed hl h

theorem inRegistry_reset (hc : c.InRegistry n) : c.reset.InRegistry n :=
  (maps_reset c).inRegistry hc fun _ hl => Layer.inRegistry_cleared hl

theorem copy_inRegistry (hs : s.Serves n) (hc : c.InRegistry n) :
    ∃ c' t, c.copy s = .ok c' t ∧ c'.InRegistry n ∧ t.Serves n := by
  obtain ⟨c', t, h, hm, hw⟩ := copy_ok c s
  exact ⟨c', t, h, hm.inRegistry hc fun _ hl => Layer.inRegistry_withoutSpare hl, hw.trans hs⟩

end Column

end VoxelStore
