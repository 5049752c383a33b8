import Mathlib.Data.List.Induction
import VoxelStore.Proofs.SectionArray.Writes
/-!
# Writes that may be refused

Whoever catches the fault of a write goes on with the array as it was. `ArrayWrite.Refused` says which writes fault in
cells of a width, and `ArrayWrite.entryAt?` which ordinal a write that does not fault puts at an index, if it
addresses it at all. From what one attempt does (`attempt_of_refused`, `attempt_of_not_refused`) it follows
by induction that any sequence of attempts leaves in each entry the ordinal that was last put there
(`attemptAll_shows`).
-/

namespace VoxelStore

/-- Only narrow cells do not hold an ordinal, and only one above 65535. -/
theorem ArrayWidth.not_holds_iff {w : ArrayWidth} {v : BlockState} :
    ¬w.Holds v ↔ w = .narrow ∧ 65535 < v := by
  cases w with
  | narrow => simp [Holds, maxOrdinal]
  | wide => simp [holds_wide]

namespace ArrayWrite

variable {a : SectionArray} {x : ArrayWrite} {writes : List ArrayWrite} {w : ArrayWidth} {i : Nat} {n : UInt32}

/-- The write does not bring another array in place of the one that it is given. -/
def InPlace (x : ArrayWrite) : Prop := x.placed = []

/-- A write to an array with cells of width `w` that faults. -/
def Refused (w : ArrayWidth) : ArrayWrite → Prop
  | set i v => sectionBlocks ≤ i ∨ w = .narrow ∧ 65535 < v
  | setRange start stop v => stop < start ∨ sectionBlocks < stop ∨ w = .narrow ∧ 65535 < v
  | setAll v => w = .narrow ∧ 65535 < v
  | copyFrom source => source.width ≠ w
  | assign _ => False

instance (w : ArrayWidth) : (x : ArrayWrite) → Decidable (x.Refused w)
  | set i v => inferInstanceAs (Decidable (sectionBlocks ≤ i ∨ w = .narrow ∧ 65535 < v))
  | setRange start stop v =>
    inferInstanceAs (Decidable (stop < start ∨ sectionBlocks < stop ∨ w = .narrow ∧ 65535 < v))
  | setAll v => inferInstanceAs (Decidable (w = .narrow ∧ 65535 < v))
  | copyFrom source => inferInstanceAs (Decidable (source.width ≠ w))
  | assign _ => inferInstanceAs (Decidable False)

/-- The ordinal that the write puts at index `i`, if it addresses this entry. -/
def entryAt? (x : ArrayWrite) (i : Nat) : Option BlockState :=
  match x with
  | set k v => if k = i then some v else none
  | setRange start stop v => if start ≤ i ∧ i < stop then some v else none
  | setAll v => some v
  | copyFrom source | assign source => source.cells[i]?

/-! ## One write -/

/-- A write changes the entries that it addresses, and no others. -/
theorem getElem_onCells (x : ArrayWrite) (cells : Vector BlockState sectionBlocks) (hi : i < sectionBlocks) :
    (x.onCells cells)[i] = (x.entryAt? i).getD cells[i] := by
  cases x with
  | set k v =>
    rw [onCells, Vector.getElem_setIfInBounds, entryAt?]
    split <;> rfl
  | setRange start stop v =>
    rw [onCells, Vector.getElem_mapIdx, entryAt?]
    split <;> rfl
  | setAll v => exact Vector.getElem_replicate ..
  | copyFrom source | assign source => simp [onCells, entryAt?, hi]

theorem run_of_refused (h : x.Refused a.width) : ∃ f, x.run a = .error f := by
  cases x with
  | set i v =>
    rcases h with hi | hv
    · exact SectionArray.set_of_not_lt (Nat.not_lt.2 hi)
    · exact ⟨_, by rw [run, SectionArray.set, dif_neg (ArrayWidth.not_holds_iff.2 hv)]⟩
  | setRange start stop v =>
    rw [run, SectionArray.setRange]
    by_cases hrange : stop < start ∨ sectionBlocks < stop
    · exact ⟨_, if_pos hrange⟩
    · have hv := (or_assoc.2 h).resolve_left hrange
      exact ⟨_, by rw [if_neg hrange, dif_neg (ArrayWidth.not_holds_iff.2 hv)]⟩
  | setAll v => exact ⟨_, SectionArray.setAll_of_not_holds (ArrayWidth.not_holds_iff.2 h)⟩
  | copyFrom source => exact ⟨_, by rw [run, SectionArray.copyInto, dif_neg h]⟩
  | assign source => exact h.elim

theorem run_of_not_refused (h : ¬x.Refused a.width) : ∃ b, x.run a = .ok b := by
  cases x with
  | set i v =>
    obtain ⟨hi, hv⟩ := not_or.1 h
    exact SectionArray.set_of_holds (Classical.not_not.1 fun hn => hv (ArrayWidth.not_holds_iff.1 hn)) (Nat.not_le.1 hi)
  | setRange start stop v =>
    obtain ⟨hs, h⟩ := not_or.1 h
    obtain ⟨hb, hv⟩ := not_or.1 h
    exact SectionArray.setRange_of_holds (Classical.not_not.1 fun hn => hv (ArrayWidth.not_holds_iff.1 hn))
      (Nat.not_lt.1 hs) (Nat.not_lt.1 hb)
  | setAll v =>
    exact SectionArray.setAll_of_holds (Classical.not_not.1 fun hn => h (ArrayWidth.not_holds_iff.1 hn))
  | copyFrom source => exact SectionArray.copyInto_of_width (Classical.not_not.1 h)
  | assign source => exact ⟨source, rfl⟩

/-- A write within a registry is not refused by cells of the width that serves it. -/
theorem not_refused_of_legal (h : x.Legal n) : ¬x.Refused (.forStateCount n) := by
  have hholds : ∀ {v : BlockState}, v < n → ¬(ArrayWidth.forStateCount n = .narrow ∧ 65535 < v) := fun hv htoo =>
    ArrayWidth.not_holds_iff.2 htoo (ArrayWidth.holds_of_lt_stateCount hv)
  cases x with
  | set i v => exact not_or.2 ⟨Nat.not_le.2 h.1, hholds h.2⟩
  | setRange start stop v =>
    obtain ⟨hs, hb, hv⟩ := h
    exact not_or.2 ⟨Nat.not_lt.2 hs, not_or.2 ⟨Nat.not_lt.2 hb, hholds hv⟩⟩
  | setAll v => exact hholds h
  | copyFrom source => exact fun hne => hne h.width
  | assign source => exact id

/-! ## Attempts -/

/-- Tries a write. If it faults, the array is what it was. -/
def attempt (a : SectionArray) (x : ArrayWrite) : SectionArray := (x.run a).toOption.getD a

/-- Tries one write after the other. -/
def attemptAll (writes : List ArrayWrite) (a : SectionArray) : SectionArray := writes.foldl attempt a

theorem attempt_of_refused (h : x.Refused a.width) : attempt a x = a := by
  obtain ⟨f, hf⟩ := run_of_refused h
  rw [attempt, hf]
  rfl

theorem attempt_of_not_refused (h : ¬x.Refused a.width) :
    x.run a = .ok (attempt a x) ∧ (attempt a x).cells = x.onCells a.cells := by
  obtain ⟨b, hb⟩ := run_of_not_refused h
  have hattempt : attempt a x = b := by
    rw [attempt, hb]
    rfl
  rw [hattempt]
  exact ⟨hb, cells_run hb⟩

theorem width_attempt (hx : x.InPlace) : (attempt a x).width = a.width := by
  by_cases h : x.Refused a.width
  · rw [attempt_of_refused h]
  · refine (run_width (attempt_of_not_refused h).1).resolve_right ?_
    rw [show x.placed = [] from hx]
    exact List.not_mem_nil

/-- What becomes of an array when a write to it is tried. Either the write faults and nothing changes, or the entries
that it addresses change and no others. -/
structure Attempted (a : SectionArray) (x : ArrayWrite) (b : SectionArray) : Prop where
  width : b.width = a.width
  faults_iff : (∃ f, x.run a = .error f) ↔ x.Refused a.width
  unchanged : x.Refused a.width → b = a
  returns : ¬x.Refused a.width → x.run a = .ok b
  entry : ¬x.Refused a.width → ∀ i (h : i < sectionBlocks), b.cells[i] = (x.entryAt? i).getD a.cells[i]

theorem attempted_attempt (hx : x.InPlace) : Attempted a x (attempt a x) where
  width := width_attempt hx
  faults_iff := by
    refine ⟨fun ⟨f, hf⟩ => Classical.byContradiction fun h => ?_, run_of_refused⟩
    rw [(attempt_of_not_refused h).1] at hf
    cases hf
  unchanged := attempt_of_refused
  returns h := (attempt_of_not_refused h).1
  entry h i hi := by simp only [(attempt_of_not_refused h).2, getElem_onCells x _ hi]

theorem attemptAll_concat (writes : List ArrayWrite) (x : ArrayWrite) (a : SectionArray) :
    attemptAll (writes ++ [x]) a = attempt (attemptAll writes a) x := by
  rw [attemptAll, List.foldl_append]
  rfl

/-- The ordinal that was put at index `i` last. What a refused write would have put there does not count. -/
def lastEntry (w : ArrayWidth) (writes : List ArrayWrite) (i : Nat) : Option BlockState :=
  (writes.filter fun x => ¬x.Refused w).reverse.findSome? (·.entryAt? i)

theorem lastEntry_concat (w : ArrayWidth) (writes : List ArrayWrite) (x : ArrayWrite) (i : Nat) :
    lastEntry w (writes ++ [x]) i =
      if x.Refused w then lastEntry w writes i else (x.entryAt? i).or (lastEntry w writes i) := by
  rw [lastEntry, List.filter_append, List.reverse_append]
  split
  · next h => simp [lastEntry, h]
  · next h =>
    have hone : [x].filter (fun y => ¬y.Refused w) = [x] := by simp [h]
    rw [hone, List.reverse_singleton, List.singleton_append, List.findSome?_cons]
    cases x.entryAt? i <;> rfl

/-- The values of an array after attempts to write to it: the last one put in each place, and elsewhere the one that
was there. -/
def valuesAfter (writes : List ArrayWrite) (a : SectionArray) : Vector BlockState sectionBlocks :=
  Vector.ofFn fun i => (lastEntry a.width writes i).getD (a.cells.get i)

theorem getElem_valuesAfter (writes : List ArrayWrite) (a : SectionArray) (hi : i < sectionBlocks) :
    (valuesAfter writes a)[i] = (lastEntry a.width writes i).getD a.cells[i] := Vector.getElem_ofFn ..

/-- Attempts leave an array of the same width, in which the last ordinal that was put in each place stands. -/
theorem attemptAll_width_cells (hx : ∀ x ∈ writes, x.InPlace) :
    (attemptAll writes a).width = a.width ∧ (attemptAll writes a).cells = valuesAfter writes a := by
  induction writes using List.reverseRecOn with
  | nil => exact ⟨rfl, Vector.ext fun i hi => (getElem_valuesAfter [] a hi).symm⟩
  | append_singleton writes x ih =>
    obtain ⟨hwidth, hcells⟩ := ih fun y hy => hx y (List.mem_append_left _ hy)
    have hplace := hx x (List.mem_append_right _ List.mem_cons_self)
    rw [attemptAll_concat]
    refine ⟨(width_attempt hplace).trans hwidth, Vector.ext fun i hi => ?_⟩
    rw [getElem_valuesAfter, lastEntry_concat, ← hwidth]
    by_cases h : x.Refused (attemptAll writes a).width
    · rw [if_pos h, hwidth, ← getElem_valuesAfter, ← hcells]
      simp only [attempt_of_refused h]
    · simp only [(attempt_of_not_refused h).2, getElem_onCells x _ hi]
      rw [if_neg h, Option.getD_or, hwidth, ← getElem_valuesAfter]
      simp only [hcells]

theorem attemptAll_shows (hx : ∀ x ∈ writes, x.InPlace) : (attemptAll writes a).Shows (valuesAfter writes a) :=
  SectionArray.shows_of_cells (attemptAll_width_cells hx).2

end ArrayWrite

end VoxelStore
