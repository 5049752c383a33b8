import VoxelStore.Proofs.Run
/-!
# What is read of a section array

An array is read entry by entry, in order from end to end, by comparison with another one, and by two scans. `Shows`
says that all of these tell of the same 4096 values, and `shows_of_cells` that they do of the values in the cells,
in narrow and in wide ones.
-/

namespace VoxelStore

namespace SectionArray

variable {a b : SectionArray} {v : BlockState} {values : Vector BlockState sectionBlocks}

/-- The values as reading one entry after the other gives them. -/
def readAll (a : SectionArray) : Except Fault (List BlockState) := (List.range sectionBlocks).mapM a.get

/-- All reads of the array tell of these values. -/
structure Shows (a : SectionArray) (values : Vector BlockState sectionBlocks) : Prop where
  get : ∀ i (h : i < sectionBlocks), a.get i = .ok values[i]
  get_outside : ∀ i, sectionBlocks ≤ i → a.get i = .error (.outOfBounds i sectionBlocks)
  readAll : a.readAll = .ok values.toList
  eq_iff : ∀ b : SectionArray, b.width = a.width →
    (a = b ↔ ∀ i (h : i < sectionBlocks), b.get i = .ok values[i])
  isEmpty_iff : a.isEmpty = true ↔ ∀ i (h : i < sectionBlocks), values[i] = 0
  uniform?_iff : ∀ v, a.uniform? = some v ↔ ∀ i (h : i < sectionBlocks), values[i] = v

theorem ext_of_width (hw : b.width = a.width) (hc : b.cells = a.cells) : a = b := by
  cases a
  cases b
  cases hw
  cases hc
  rfl

theorem get_of_lt (a : SectionArray) {i : Nat} (h : i < sectionBlocks) : a.get i = .ok a.cells[i] := dif_pos h

theorem get_of_le (a : SectionArray) {i : Nat} (h : sectionBlocks ≤ i) :
    a.get i = .error (.outOfBounds i sectionBlocks) := dif_neg (Nat.not_lt.2 h)

theorem readAll_eq (a : SectionArray) : a.readAll = .ok a.cells.toList := by
  have hmap : (List.range sectionBlocks).map a.get = a.cells.toList.map .ok := by
    refine List.ext_getElem (by simp) fun i hi _ => ?_
    rw [List.length_map, List.length_range] at hi
    rw [List.getElem_map, List.getElem_range, get_of_lt a hi, List.getElem_map, Vector.getElem_toList]
  obtain ⟨ys, hys, hmap'⟩ := except_list_mapM_of_ok (f := a.get) (l := List.range sectionBlocks)
    fun i hi => ⟨_, get_of_lt a (List.mem_range.1 hi)⟩
  rw [readAll, hys]
  exact congrArg Except.ok ((List.map_inj_right fun _ _ => Except.ok.inj).1 (hmap'.symm.trans hmap))

theorem isEmpty_iff : a.isEmpty = true ↔ ∀ i (h : i < sectionBlocks), a.cells[i] = 0 := by
  simp [isEmpty]

/-- An array whose values are all the same is filled with its first value. -/
theorem cells_of_uniform (h : a.uniform? = some v) : a.cells = Vector.replicate sectionBlocks v := by
  unfold uniform? at h
  split at h
  · next hall =>
    obtain rfl := Option.some.inj h
    refine Vector.ext fun i hi => ?_
    rw [Vector.getElem_replicate]
    exact eq_of_beq (Vector.all_eq_true.1 hall i hi)
  · cases h

/-- The one value of an array is found exactly if there is one. -/
theorem uniform?_eq_some_iff : a.uniform? = some v ↔ a.cells = Vector.replicate sectionBlocks v := by
  refine ⟨cells_of_uniform, ?_⟩
  intro h
  have hfirst : a.first = v := by simp [first, h]
  simp [uniform?, hfirst, h]

/-- The cells are all that an array shows, its width apart. -/
theorem shows_of_cells (h : a.cells = values) : a.Shows values where
  get i hi := by rw [get_of_lt a hi, h]
  get_outside _ hi := get_of_le a hi
  readAll := by rw [readAll_eq, h]
  eq_iff b hw := by
    constructor
    · rintro rfl i hi
      rw [get_of_lt _ hi, h]
    · intro hb
      refine ext_of_width hw (Vector.ext fun i hi => ?_)
      have hget := hb i hi
      rw [get_of_lt b hi, ← h] at hget
      exact Except.ok.inj hget
  isEmpty_iff := by rw [isEmpty_iff, h]
  uniform?_iff v := by
    rw [uniform?_eq_some_iff, h]
    constructor
    · rintro hv i hi
      rw [hv, Vector.getElem_replicate]
    · intro hv
      refine Vector.ext fun i hi => ?_
      rw [Vector.getElem_replicate, hv i hi]

end SectionArray

end VoxelStore
