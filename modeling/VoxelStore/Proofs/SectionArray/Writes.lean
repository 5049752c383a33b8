import VoxelStore.Proofs.SectionArray.Reads
/-!
# Writes to a section array

Whoever loads a layer may write to its array in any way. `ArrayWrite.onCells` says what each write does to
the 4096 values; `cells_runAll` and `runAll_inRegistry` carry that over to any number of writes, the second
for arrays and ordinals of one registry, where no write faults.
-/

namespace VoxelStore

theorem set_eq_setIfInBounds {α : Type} {n i : Nat} {xs : Vector α n} {x : α} (h : i < n) :
    xs.set i x h = xs.setIfInBounds i x :=
  Vector.ext fun j hj => by rw [Vector.getElem_set, Vector.getElem_setIfInBounds]

namespace SectionArray

variable {a b source : SectionArray} {v : BlockState} {n : UInt32}

/-! ## Single operations -/

theorem set_eq_ok {i : Nat} (h : a.set i v = .ok b) :
    b.width = a.width ∧ b.cells = a.cells.setIfInBounds i v := by
  unfold set at h
  split at h
  · split at h
    · next hi =>
      cases h
      exact ⟨rfl, set_eq_setIfInBounds hi⟩
    · cases h
  · cases h

theorem set_of_holds {i : Nat} (hv : a.width.Holds v) (hi : i < sectionBlocks) : ∃ b, a.set i v = .ok b :=
  ⟨_, by rw [set, dif_pos hv, dif_pos hi]⟩

theorem set_of_not_lt {i : Nat} (hi : ¬i < sectionBlocks) : ∃ f, a.set i v = .error f := by
  by_cases hv : a.width.Holds v
  · exact ⟨_, by rw [set, dif_pos hv, dif_neg hi]⟩
  · exact ⟨_, by rw [set, dif_neg hv]⟩

theorem setRange_eq_ok {start stop : Nat} (h : a.setRange start stop v = .ok b) :
    b.width = a.width ∧ b.cells = a.cells.mapIdx fun i old => if start ≤ i ∧ i < stop then v else old := by
  unfold setRange at h
  split at h
  · cases h
  · split at h
    · cases h
      exact ⟨rfl, rfl⟩
    · cases h

theorem setRange_of_holds {start stop : Nat} (hv : a.width.Holds v) (hs : start ≤ stop)
    (hb : stop ≤ sectionBlocks) : ∃ b, a.setRange start stop v = .ok b :=
  ⟨_, by rw [setRange, if_neg (by omega), dif_pos hv]⟩

theorem setAll_eq_ok (h : a.setAll v = .ok b) :
    b.width = a.width ∧ b.cells = Vector.replicate sectionBlocks v := by
  obtain ⟨hw, hc⟩ := setRange_eq_ok h
  refine ⟨hw, Vector.ext fun i hi => ?_⟩
  rw [hc, Vector.getElem_mapIdx, if_pos ⟨Nat.zero_le i, hi⟩, Vector.getElem_replicate]

theorem setAll_of_holds (hv : a.width.Holds v) : ∃ b, a.setAll v = .ok b :=
  setRange_of_holds hv (Nat.zero_le _) (Nat.le_refl _)

theorem setAll_of_not_holds (hv : ¬a.width.Holds v) : a.setAll v = .error (.ordinalTooWide v) := by
  have hrange : ¬(sectionBlocks < 0 ∨ sectionBlocks < sectionBlocks) := by decide
  rw [setAll, setRange, if_neg hrange, dif_neg hv]

/-- Filling an array asks for its width only. -/
theorem setAll_eq (a : SectionArray) (v : BlockState) :
    a.setAll v = if h : a.width.Holds v then .ok (constant a.width v h) else .error (.ordinalTooWide v) := by
  split
  · next h =>
    obtain ⟨b, hb⟩ := setAll_of_holds h
    obtain ⟨hwidth, hcells⟩ := setAll_eq_ok hb
    have hconstant : b = constant a.width v h := ext_of_width hwidth.symm hcells.symm
    rw [hb, hconstant]
  · next h => exact setAll_of_not_holds h

theorem copyInto_eq_ok (h : source.copyInto a = .ok b) : b.width = a.width ∧ b.cells = source.cells := by
  unfold copyInto at h
  split at h
  · cases h
    exact ⟨rfl, rfl⟩
  · cases h

theorem copyInto_of_width (h : source.width = a.width) : ∃ b, source.copyInto a = .ok b :=
  ⟨_, by rw [copyInto, dif_pos h]⟩

/-- Copying an array into one of its width gives the array itself. -/
theorem copyInto_eq (source target : SectionArray) :
    source.copyInto target =
      if source.width = target.width then .ok source else .error (.widthMismatch source.width target.width) := by
  split
  · next h =>
    obtain ⟨b, hb⟩ := copyInto_of_width h
    obtain ⟨hwidth, hcells⟩ := copyInto_eq_ok hb
    have hsource : b = source := ext_of_width (h.trans hwidth.symm) hcells.symm
    rw [hb, hsource]
  · next h => exact dif_neg h

/-- A filled array holds one value everywhere. -/
theorem filled_eq_ok {s t : Session} (h : filled v s = .ok b t) :
    b.cells = Vector.replicate sectionBlocks v := by
  obtain ⟨c, s', -, hset⟩ := Run.bind_eq_ok.1 h
  obtain ⟨hset, -⟩ := Run.lift_eq_ok.1 hset
  exact (setAll_eq_ok hset).2

/-- In a session whose width holds the value, filling an array cannot fault. -/
theorem filled_of_holds {s : Session} {w : ArrayWidth} (hs : s.width = some w) (hv : w.Holds v) :
    ∃ b, filled v s = .ok b s ∧ b.width = w := by
  obtain ⟨b, hb⟩ := setAll_of_holds (a := blank w) hv
  refine ⟨b, ?_, (setAll_eq_ok hb).1⟩
  have hcreate : create s = .ok (blank w) s := Run.map_of_ok (ArrayWidth.current_eq hs) blank
  exact (Run.bind_of_ok hcreate _).trans (Run.lift_of_ok hb)

/-! ## Arrays of one registry -/

/-- The array has the width that serves a registry of `n` states, and holds ordinals of it only. -/
structure InRegistry (n : UInt32) (a : SectionArray) : Prop where
  width : a.width = ArrayWidth.forStateCount n
  cells : ∀ i (h : i < sectionBlocks), a.cells[i] < n

theorem InRegistry.holds (ha : a.width = ArrayWidth.forStateCount n) (hv : v < n) : a.width.Holds v :=
  ha ▸ ArrayWidth.holds_of_lt_stateCount hv

end SectionArray

/-! ## Writes as data -/

/-- One write to a section array. -/
inductive ArrayWrite where
  | set (i : Nat) (v : BlockState)
  | setRange (start stop : Nat) (v : BlockState)
  | setAll (v : BlockState)
  /-- Every cell is taken from `source`. -/
  | copyFrom (source : SectionArray)
  /-- The array is exchanged for `source`, whatever its width. -/
  | assign (source : SectionArray)

namespace ArrayWrite

/-- What a write does to an array. -/
def run (a : SectionArray) : ArrayWrite → Except Fault SectionArray
  | set i v => a.set i v
  | setRange start stop v => a.setRange start stop v
  | setAll v => a.setAll v
  | copyFrom source => source.copyInto a
  | assign source => .ok source

/-- Writes one after the other. -/
def runAll (writes : List ArrayWrite) (a : SectionArray) : Except Fault SectionArray := writes.foldlM run a

/-- What a write does to the 4096 values. -/
def onCells (cells : Vector BlockState sectionBlocks) : ArrayWrite → Vector BlockState sectionBlocks
  | set i v => cells.setIfInBounds i v
  | setRange start stop v => cells.mapIdx fun i old => if start ≤ i ∧ i < stop then v else old
  | setAll v => Vector.replicate sectionBlocks v
  | copyFrom source | assign source => source.cells

/-- The arrays that a write puts in the place of the one that it is given. -/
def placed : ArrayWrite → List SectionArray
  | assign source => [source]
  | _ => []

/-- The write stays inside the array, and within a registry of `n` states. -/
def Legal (n : UInt32) : ArrayWrite → Prop
  | set i v => i < sectionBlocks ∧ v < n
  | setRange start stop v => start ≤ stop ∧ stop ≤ sectionBlocks ∧ v < n
  | setAll v => v < n
  | copyFrom source | assign source => source.InRegistry n

variable {a b : SectionArray} {n : UInt32}

theorem cells_run {x : ArrayWrite} (h : x.run a = .ok b) : b.cells = x.onCells a.cells := by
  cases x with
  | set i v => exact (SectionArray.set_eq_ok h).2
  | setRange start stop v => exact (SectionArray.setRange_eq_ok h).2
  | setAll v => exact (SectionArray.setAll_eq_ok h).2
  | copyFrom source => exact (SectionArray.copyInto_eq_ok h).2
  | assign source =>
    cases h
    rfl

/-- Writes that end in an array have left in it what they leave in the values, in their order. -/
theorem cells_runAll {writes : List ArrayWrite} (h : runAll writes a = .ok b) :
    b.cells = writes.foldl onCells a.cells := by
  induction writes generalizing a with
  | nil =>
    cases h
    rfl
  | cons x writes ih =>
    rw [runAll, List.foldlM_cons] at h
    obtain ⟨a', hx, h⟩ := except_bind_eq_ok.1 h
    rw [List.foldl_cons, ← cells_run hx]
    exact ih h

theorem run_width {x : ArrayWrite} (h : x.run a = .ok b) : b.width = a.width ∨ b ∈ x.placed := by
  cases x with
  | set i v => exact .inl (SectionArray.set_eq_ok h).1
  | setRange start stop v => exact .inl (SectionArray.setRange_eq_ok h).1
  | setAll v => exact .inl (SectionArray.setAll_eq_ok h).1
  | copyFrom source => exact .inl (SectionArray.copyInto_eq_ok h).1
  | assign source =>
    cases h
    exact .inr List.mem_cons_self

theorem runAll_width {writes : List ArrayWrite} (h : runAll writes a = .ok b) :
    b.width = a.width ∨ ∃ x ∈ writes.flatMap placed, x.width = b.width := by
  induction writes generalizing a with
  | nil =>
    cases h
    exact .inl rfl
  | cons x writes ih =>
    rw [runAll, List.foldlM_cons] at h
    obtain ⟨a', hx, h⟩ := except_bind_eq_ok.1 h
    rw [List.flatMap_cons]
    rcases ih h with hw | ⟨y, hy, hw⟩
    · rcases run_width hx with hw' | hmem
      · exact .inl (hw.trans hw')
      · exact .inr ⟨a', List.mem_append_left _ hmem, hw.symm⟩
    · exact .inr ⟨y, List.mem_append_right _ hy, hw⟩

theorem run_inRegistry {x : ArrayWrite} (hx : x.Legal n) (ha : a.InRegistry n) :
    ∃ b, x.run a = .ok b ∧ b.InRegistry n := by
  -- after a write a cell holds the new ordinal or one that was in it before
  have lt_of_set : ∀ {v : BlockState} {c : Prop} [Decidable c] {u : BlockState}, v < n → u < n →
      (if c then v else u) < n := by
    intro v c _ u hv hu
    split
    · exact hv
    · exact hu
  cases x with
  | set i v =>
    obtain ⟨b, hb⟩ := SectionArray.set_of_holds (SectionArray.InRegistry.holds ha.width hx.2) hx.1
    obtain ⟨hw, hc⟩ := SectionArray.set_eq_ok hb
    refine ⟨b, hb, hw.trans ha.width, fun j hj => ?_⟩
    simp only [hc, Vector.getElem_setIfInBounds]
    exact lt_of_set hx.2 (ha.cells j hj)
  | setRange start stop v =>
    obtain ⟨hs, hb, hv⟩ := hx
    obtain ⟨b, hb⟩ := SectionArray.setRange_of_holds (SectionArray.InRegistry.holds ha.width hv) hs hb
    obtain ⟨hw, hc⟩ := SectionArray.setRange_eq_ok hb
    refine ⟨b, hb, hw.trans ha.width, fun j hj => ?_⟩
    simp only [hc, Vector.getElem_mapIdx]
    exact lt_of_set hv (ha.cells j hj)
  | setAll v =>
    obtain ⟨b, hb⟩ := SectionArray.setAll_of_holds (SectionArray.InRegistry.holds ha.width hx)
    obtain ⟨hw, hc⟩ := SectionArray.setAll_eq_ok hb
    refine ⟨b, hb, hw.trans ha.width, fun j hj => ?_⟩
    rw [hc, Vector.getElem_replicate]
    exact hx
  | copyFrom source =>
    obtain ⟨b, hb⟩ := SectionArray.copyInto_of_width (hx.width.trans ha.width.symm)
    obtain ⟨hw, hc⟩ := SectionArray.copyInto_eq_ok hb
    exact ⟨b, hb, hw.trans ha.width, fun j hj => by simpa only [hc] using hx.cells j hj⟩
  | assign source => exact ⟨source, rfl, hx⟩

/-- Legal writes to an array of the registry do not fault, and keep it in the registry. -/
theorem runAll_inRegistry {writes : List ArrayWrite} (hx : ∀ x ∈ writes, x.Legal n) (ha : a.InRegistry n) :
    ∃ b, runAll writes a = .ok b ∧ b.InRegistry n := by
  induction writes generalizing a with
  | nil => exact ⟨a, rfl, ha⟩
  | cons x writes ih =>
    obtain ⟨a', hrun, ha'⟩ := run_inRegistry (hx x List.mem_cons_self) ha
    obtain ⟨b, hb, hreg⟩ := ih (fun y hy => hx y (List.mem_cons_of_mem x hy)) ha'
    exact ⟨b, by rw [runAll, List.foldlM_cons, hrun]; exact hb, hreg⟩

end ArrayWrite

end VoxelStore
