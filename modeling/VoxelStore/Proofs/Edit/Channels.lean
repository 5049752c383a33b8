import VoxelStore.Channel
import VoxelStore.Proofs.Column.Effects
/-!
# Channels in step with their column

A channel that was written has one entry for every layer of its column. While that holds, growth moves the
entries along with their layers (`onLayer_grow`), and writing one layer changes the grid of no other
(`onLayer_update`).
-/

namespace VoxelStore

theorem join_replicate_none {β : Type} (d i : Nat) :
    ((Array.replicate d (none : Option β))[i]?).join = none := by
  rw [Array.getElem?_replicate]
  split <;> rfl

theorem Extension.apply_eq {α : Type} (g : Extension) (a : α) (items : Array α) :
    g.apply a items =
      if g.append then items ++ Array.replicate g.diff a else Array.replicate g.diff a ++ items := by
  have hmake : ∀ n, (make (fun _ : Unit => (a, ())) n ()).1 = List.replicate n a := by
    intro n
    induction n with
    | zero => rfl
    | succ n ih => rw [List.replicate_succ, ← ih]; rfl
  unfold apply applyWith
  rw [← List.toArray_replicate, ← hmake]

/-- Growth at the end adds entries after the old ones, growth at the front before them. -/
theorem Extension.join_apply {β : Type} (g : Extension) (items : Array (Option β)) (i : Nat) :
    ((g.apply none items)[i]?).join =
      if g.append then (items[i]?).join else if i < g.diff then none else (items[i - g.diff]?).join := by
  rw [apply_eq]
  split
  · rw [Array.getElem?_append]
    split
    · rfl
    · next hi => rw [join_replicate_none, Array.getElem?_eq_none (Nat.le_of_not_lt hi), Option.join_none]
  · rw [Array.getElem?_append, Array.size_replicate]
    split
    · exact join_replicate_none ..
    · rfl

namespace Column

variable {c c' : Column}

/-- The number of layers follows from the range. -/
theorem size_slots_eq (hb : c'.bottom = c.bottom) (ht : c'.top = c.top) : c'.slots.size = c.slots.size := by
  unfold top at ht
  omega

theorem offset?_congr (hb : c'.bottom = c.bottom) (ht : c'.top = c.top) (k : Int) :
    c'.offset? k = c.offset? k := by rw [offset?, offset?, hb, ht]

theorem offset?_eq_none {k : Int} (h : ¬(c.bottom ≤ k ∧ k ≤ c.top)) : c.offset? k = none := if_neg h

end Column

namespace Channel

variable {α : Type} {n : Nat} {ch : Channel α n} {c c' : Column} {layer : Int}

theorem grid?_none (ch : Channel α n) : ch.grid? none = none := by
  unfold grid?
  cases ch.layers <;> rfl

/-- The grid of a layer of a column. -/
def onLayer (ch : Channel α n) (c : Column) (k : Int) : Option (Vector α n) := ch.grid? (c.offset? k)

/-- Once anything was written, there is one entry for every layer of the column. -/
def Sized (c : Column) (ch : Channel α n) : Prop :=
  ∀ layers, ch.layers = some layers → layers.size = c.slots.size

theorem sized_unwritten (c : Column) : ({} : Channel α n).Sized c := by rintro layers ⟨⟩

theorem onLayer_congr (hb : c'.bottom = c.bottom) (ht : c'.top = c.top) (k : Int) :
    ch.onLayer c' k = ch.onLayer c k := by rw [onLayer, onLayer, Column.offset?_congr hb ht]

theorem Sized.congr (h : ch.Sized c) (hb : c'.bottom = c.bottom) (ht : c'.top = c.top) : ch.Sized c' :=
  fun layers hl => (h layers hl).trans (Column.size_slots_eq hb ht).symm

/-! ## Growth -/

theorem Sized.grow {g : Extension} (h : ch.Sized c) (hg : c.growth? layer = some g)
    (he : Column.Extends layer c c') : (ch.grow g).Sized c' := by
  intro grown hgrown
  obtain ⟨layers, hl, rfl⟩ := Option.map_eq_some_iff.1 hgrown
  have hsize : (g.apply none layers).size = c.slots.size + g.diff := by
    rw [Extension.apply, Extension.size_applyWith, h layers hl]
  have hbottom := he.bottom
  have htop := he.top
  unfold Column.top at htop
  rw [hsize]
  rcases Column.growth_cases hg with ⟨hlt, rfl⟩ | ⟨hge, hgt, rfl⟩
  · dsimp only
    omega
  · unfold Column.top at hgt ⊢
    dsimp only
    omega

/-- Growth in either direction leaves every grid with its layer, and gives the new layers none. -/
theorem onLayer_grow {g : Extension} (h : ch.Sized c) (hg : c.growth? layer = some g)
    (he : Column.Extends layer c c') (k : Int) : (ch.grow g).onLayer c' k = ch.onLayer c k := by
  cases hl : ch.layers with
  | none => simp [onLayer, grid?, grow, hl]
  | some layers =>
    have hsize := h layers hl
    have hbottom := he.bottom
    have htop := he.top
    have hrange : c.top = c.bottom + c.slots.size - 1 := rfl
    have hold : ch.onLayer c k = (c.offset? k).bind fun i => layers[i]?.join := by
      rw [onLayer, grid?, hl, Option.bind_some]
    have hnew : (ch.grow g).onLayer c' k = (c'.offset? k).bind fun i => (g.apply none layers)[i]?.join := by
      rw [onLayer, grid?, grow, hl, Option.map_some, Option.bind_some]
    rw [hold, hnew]
    by_cases hk' : c'.bottom ≤ k ∧ k ≤ c'.top
    · rw [Column.offset?_eq_some hk', Option.bind_some, Extension.join_apply]
      rcases Column.growth_cases hg with ⟨hlt, rfl⟩ | ⟨hge, hgt, rfl⟩
      · rw [if_neg Bool.false_ne_true]
        dsimp only
        by_cases hk : c.bottom ≤ k ∧ k ≤ c.top
        · -- the bottom and the entries have moved by the same distance
          have hindex : (k - c'.bottom).toNat - (c.bottom - layer).toNat = (k - c.bottom).toNat := by omega
          rw [Column.offset?_eq_some hk, Option.bind_some, if_neg (by omega), hindex]
        · rw [Column.offset?_eq_none hk, Option.bind_none, if_pos (by omega)]
      · have hb : c'.bottom = c.bottom := by omega
        rw [if_pos rfl, hb]
        by_cases hk : c.bottom ≤ k ∧ k ≤ c.top
        · rw [Column.offset?_eq_some hk, Option.bind_some]
        · have hend : layers.size ≤ (k - c.bottom).toNat := by omega
          rw [Column.offset?_eq_none hk, Option.bind_none, Array.getElem?_eq_none hend, Option.join_none]
    · have hk : ¬(c.bottom ≤ k ∧ k ≤ c.top) := fun hk => hk' (by omega)
      rw [Column.offset?_eq_none hk', Column.offset?_eq_none hk]
      rfl

/-! ## Writes -/

/-- Writing the grid of a layer leaves all others alone, also where it is the first of the channel. -/
theorem onLayer_put (h : ch.Sized c) (hl : c.bottom ≤ layer ∧ layer ≤ c.top) (grid : Vector α n) (k : Int) :
    (ch.put c.slots.size (layer - c.bottom).toNat grid).onLayer c k =
      if k = layer then some grid else ch.onLayer c k := by
  have hrange := hl
  unfold Column.top at hrange
  have hsize : (ch.layers.getD (Array.replicate c.slots.size none)).size = c.slots.size := by
    cases hc : ch.layers with
    | none => exact Array.size_replicate
    | some layers => exact h layers hc
  have hother : ∀ i, ch.grid? (some i) = ((ch.layers.getD (Array.replicate c.slots.size none))[i]?).join := by
    intro i
    cases hc : ch.layers with
    | none => rw [Option.getD_none, join_replicate_none, grid?, hc]; rfl
    | some layers => rw [grid?, hc]; rfl
  by_cases hk : c.bottom ≤ k ∧ k ≤ c.top
  · rw [onLayer, onLayer, Column.offset?_eq_some hk, hother]
    unfold Column.top at hk
    simp only [grid?, put, Option.bind_some, Array.getElem?_setIfInBounds]
    by_cases hkl : k = layer
    · rw [if_pos hkl, hkl, if_pos rfl, if_pos (by omega)]
      rfl
    · rw [if_neg hkl, if_neg (by omega)]
  · have hkl : k ≠ layer := fun he => hk (he ▸ hl)
    rw [if_neg hkl, onLayer, onLayer, Column.offset?_eq_none hk, grid?_none, grid?_none]

theorem Sized.put (h : ch.Sized c) (offset : Nat) (grid : Vector α n) :
    (ch.put c.slots.size offset grid).Sized c := by
  rintro layers ⟨⟩
  rw [Array.size_setIfInBounds]
  cases hl : ch.layers with
  | none => exact Array.size_replicate
  | some layers => exact h layers hl

/-- A layer that has no grid is written as if all of its cells were blank. -/
theorem onLayer_update (h : ch.Sized c) (hl : c.bottom ≤ layer ∧ layer ≤ c.top) (blank : α)
    (change : Vector α n → Vector α n) (k : Int) :
    (ch.update c.slots.size (layer - c.bottom).toNat blank change).onLayer c k =
      if k = layer then some (change ((ch.onLayer c layer).getD (Vector.replicate n blank)))
      else ch.onLayer c k := by
  have hgrid : ch.onLayer c layer = ch.grid? (some (layer - c.bottom).toNat) := by
    rw [onLayer, Column.offset?_eq_some hl]
  rw [update, onLayer_put h hl, hgrid]

theorem Sized.update (h : ch.Sized c) (offset : Nat) (blank : α) (change : Vector α n → Vector α n) :
    (ch.update c.slots.size offset blank change).Sized c := h.put offset _

end Channel

end VoxelStore
