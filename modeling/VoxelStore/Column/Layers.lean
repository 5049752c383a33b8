import VoxelStore.Column
/-!
# What the layers of a column hold

`Column.layer` is the view through which a column is described. Writing a layer changes that layer alone
(`layer_putLayer`), and growth changes none (`layer_grow`).
-/

namespace VoxelStore

namespace Slot

/-- New slots are empty. -/
theorem layer_of_mem_make {n k : Nat} {s : Slot} (h : s ∈ (Extension.make fresh n k).1) :
    s.layer = .empty none := by
  induction n generalizing k with
  | zero => simp [Extension.make] at h
  | succ n ih =>
    simp only [Extension.make, fresh, List.mem_cons] at h
    rcases h with rfl | h
    · rfl
    · exact ih h

end Slot

namespace Column

theorem offset?_eq_some {c : Column} {l : Int} (h : c.bottom ≤ l ∧ l ≤ c.top) :
    c.offset? l = some (l - c.bottom).toNat := if_pos h

/-- Outside of the range a layer is empty and has no spare. -/
theorem layer_of_not_mem {c : Column} {l : Int} (h : ¬(c.bottom ≤ l ∧ l ≤ c.top)) :
    c.layer l = .empty none := by
  have hoff : c.offset? l = none := if_neg h
  simp [layer, slot?, hoff]

theorem layer_of_mem {c : Column} {l : Int} (h : c.bottom ≤ l ∧ l ≤ c.top) :
    c.layer l = ((c.slots[(l - c.bottom).toNat]?).map Slot.layer).getD (.empty none) := by
  simp [layer, slot?, offset?_eq_some h]

/-- A write changes the layer that it names and no other. -/
theorem layer_putLayer (c : Column) {l : Int} (h : c.bottom ≤ l ∧ l ≤ c.top) (l' : Int) (x : Layer) :
    (c.putLayer l x).layer l' = if l' = l then x else c.layer l' := by
  have hput : c.putLayer l x =
      { c with slots := c.slots.modify (l - c.bottom).toNat fun s => { s with layer := x } } := by
    simp [putLayer, offset?_eq_some h]
  have htop : (c.putLayer l x).top = c.top := by simp [hput, top]
  have hbottom : (c.putLayer l x).bottom = c.bottom := by simp [hput]
  by_cases hl : c.bottom ≤ l' ∧ l' ≤ c.top
  · have h' : (c.putLayer l x).bottom ≤ l' ∧ l' ≤ (c.putLayer l x).top := by rwa [htop, hbottom]
    simp only [layer, slot?, offset?_eq_some h', offset?_eq_some hl, Option.bind_some]
    simp only [hput, Array.getElem?_modify]
    unfold top at h hl
    by_cases hll : l' = l
    · subst hll
      have hs : (l' - c.bottom).toNat < c.slots.size := by omega
      simp [hs]
    · have : (l - c.bottom).toNat ≠ (l' - c.bottom).toNat := by omega
      simp [hll, this]
  · have hne : l' ≠ l := by rintro rfl; exact hl h
    rw [if_neg hne, layer_of_not_mem hl, layer_of_not_mem (by rwa [htop, hbottom])]

/-- Growth goes in one direction, as far as it has to. -/
theorem growth_cases {c : Column} {layer : Int} {g : Extension} (h : c.growth? layer = some g) :
    (layer < c.bottom ∧ g = ⟨(c.bottom - layer).toNat, false⟩) ∨
      (c.bottom ≤ layer ∧ c.top < layer ∧ g = ⟨(layer - c.top).toNat, true⟩) := by
  unfold growth? at h
  split at h
  · next hlt => exact .inl ⟨hlt, (Option.some.inj h).symm⟩
  · next hge =>
    split at h
    · next hgt => exact .inr ⟨Int.not_lt.1 hge, hgt, (Option.some.inj h).symm⟩
    · cases h

theorem bottom_grow {c : Column} {layer : Int} {g : Extension} (h : c.growth? layer = some g) (n : Nat) :
    (c.grow g n).1.bottom = min c.bottom layer := by
  have hbottom : (c.grow g n).1.bottom = if g.append then c.bottom else c.bottom - g.diff := rfl
  rcases growth_cases h with ⟨hlt, rfl⟩ | ⟨hge, hgt, rfl⟩
  · rw [hbottom, if_neg Bool.false_ne_true]
    dsimp only
    omega
  · rw [hbottom, if_pos rfl]
    omega

theorem top_grow {c : Column} {layer : Int} {g : Extension} (h : c.growth? layer = some g) (n : Nat) :
    (c.grow g n).1.top = max c.top layer := by
  have hsize : (c.grow g n).1.slots.size = c.slots.size + g.diff := Extension.size_applyWith ..
  have hbottom := bottom_grow h n
  have htop : c.top = c.bottom + c.slots.size - 1 := rfl
  rw [top, hsize, hbottom]
  -- downwards the bottom moves by as many layers as are added
  rcases growth_cases h with ⟨hlt, rfl⟩ | ⟨hge, hgt, rfl⟩
  · dsimp only
    omega
  · dsimp only
    omega

/-- Growth changes what no layer holds: new layers are empty, as they were outside of the range, and the
others move along with the bottom. -/
theorem layer_grow {c : Column} {layer : Int} {g : Extension} (h : c.growth? layer = some g) (n : Nat)
    (l : Int) : (c.grow g n).1.layer l = c.layer l := by
  have hsize : (Extension.make Slot.fresh g.diff n).1.toArray.size = g.diff := by
    simp [Extension.length_make]
  have hslots : (c.grow g n).1.slots =
      if g.append then c.slots ++ (Extension.make Slot.fresh g.diff n).1.toArray
      else (Extension.make Slot.fresh g.diff n).1.toArray ++ c.slots := by
    simp [grow, Extension.applyWith]
  have hnew : ∀ i : Nat,
      (((Extension.make Slot.fresh g.diff n).1.toArray[i]?).map Slot.layer).getD (.empty none) =
        .empty none := by
    intro i
    cases hi : (Extension.make Slot.fresh g.diff n).1.toArray[i]? with
    | none => rfl
    | some s => exact Slot.layer_of_mem_make (List.mem_toArray.1 (Array.mem_of_getElem? hi))
  generalize (Extension.make Slot.fresh g.diff n).1.toArray = added at hsize hslots hnew
  have hbottom := bottom_grow h n
  have htop := top_grow h n
  have hrange : c.top = c.bottom + c.slots.size - 1 := rfl
  by_cases hl : (c.grow g n).1.bottom ≤ l ∧ l ≤ (c.grow g n).1.top
  · rw [layer_of_mem hl, hslots, hbottom]
    rcases growth_cases h with ⟨hlt, rfl⟩ | ⟨hge, hgt, rfl⟩
    · rw [if_neg Bool.false_ne_true]
      dsimp only at hsize
      by_cases hold : c.bottom ≤ l ∧ l ≤ c.top
      · -- the bottom and the slots have moved by the same distance
        have hindex : (l - min c.bottom layer).toNat - (c.bottom - layer).toNat = (l - c.bottom).toNat := by
          omega
        rw [layer_of_mem hold, Array.getElem?_append_right (by omega), hsize, hindex]
      · rw [layer_of_not_mem hold, Array.getElem?_append_left (by omega), hnew]
    · have hmin : min c.bottom layer = c.bottom := by omega
      rw [if_pos rfl, hmin]
      by_cases hold : c.bottom ≤ l ∧ l ≤ c.top
      · rw [layer_of_mem hold, Array.getElem?_append_left (by omega)]
      · rw [layer_of_not_mem hold, Array.getElem?_append_right (by omega), hnew]
  · rw [layer_of_not_mem hl, layer_of_not_mem (by omega)]

/-- The slots from the bottom up hold what the layers of the range are. -/
theorem map_layer_slots (c : Column) :
    c.slots.toList.map Slot.layer = (List.range c.slots.size).map fun i : Nat => c.layer (c.bottom + i) := by
  apply List.ext_getElem
  · simp
  · intro i hi _
    have hsize : i < c.slots.size := by simpa using hi
    have hmem : c.bottom ≤ c.bottom + i ∧ c.bottom + i ≤ c.top := by
      unfold top
      omega
    have hindex : (c.bottom + i - c.bottom).toNat = i := by omega
    rw [List.getElem_map, List.getElem_map, List.getElem_range, Array.getElem_toList, layer_of_mem hmem, hindex,
      Array.getElem?_eq_getElem hsize]
    rfl

end Column

end VoxelStore
