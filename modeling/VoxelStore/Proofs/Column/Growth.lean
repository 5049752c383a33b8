import Mathlib
import VoxelStore.Proofs.Column.BlockMap
/-!
# Growth in any order

A column that reaches one layer after the other ends in the hull of its range and these layers, in whatever order
they come, and no layer holds anything else than before. An array with one entry for every layer stays in step when
it follows each growth that the column reports (`InStep`): old layers keep their entries, and the layers that are
added get new ones, in the order in which they are made (`gainedAll`). `extendAll_inStep` puts both together.
-/

namespace VoxelStore

variable {α σ : Type}

namespace Extension

/-- Making `m + n` values is making `m` of them and then `n` more. -/
theorem make_add (fresh : σ → α × σ) (m n : Nat) (supply : σ) :
    make fresh (m + n) supply =
      ((make fresh m supply).1 ++ (make fresh n (make fresh m supply).2).1,
        (make fresh n (make fresh m supply).2).2) := by
  induction m generalizing supply with
  | zero => simp [make]
  | succ m ih => simp [Nat.succ_add, make, ih]

/-- What an array with one entry for every layer becomes when the column reports how it grew, if it did. -/
def follow (fresh : σ → α × σ) (growth : Option Extension) (items : Array α) (supply : σ) : Array α × σ :=
  growth.elim (items, supply) fun e => e.applyWith fresh items supply

end Extension

namespace Column

variable {c c₁ c' : Column} {layer : Int} {items items₁ items' : Array α} {supply supply₁ supply' : σ}
variable {fresh : σ → α × σ} {added added₁ : List Int} {s t : Session}

/-- The entry for a layer in an array with one entry for every layer of the column. -/
def itemAt? (c : Column) (items : Array α) (layer : Int) : Option α := (c.offset? layer).bind (items[·]?)

/-- Reaches the layers one after the other, with an array that follows each growth. -/
def extendAll (fresh : σ → α × σ) : List Int → Column → Array α → σ → Run (Column × Array α × σ)
  | [], c, items, supply => return (c, items, supply)
  | layer :: rest, c, items, supply => do
    let (growth, c) ← c.extendTo layer
    let (items, supply) := Extension.follow fresh growth items supply
    extendAll fresh rest c items supply

/-- The layers by which a range grows when it reaches `layer`, lowest first. -/
def gained (bottom top layer : Int) : List Int := Int.range layer bottom ++ Int.range (top + 1) (layer + 1)

/-- The layers by which a range grows when it reaches one layer after the other. -/
def gainedAll : Int → Int → List Int → List Int
  | _, _, [] => []
  | bottom, top, layer :: rest => gained bottom top layer ++ gainedAll (min bottom layer) (max top layer) rest

/-- `c'` is `c` with the hull of its range and `layers` for its range. -/
structure Spans (layers : List Int) (c c' : Column) : Prop where
  bottom : IsLeast (insert c.bottom {k | k ∈ layers}) c'.bottom
  top : IsGreatest (insert c.top {k | k ∈ layers}) c'.top
  layer : ∀ k, c'.layer k = c.layer k

/-- `c'` has the layers of `c` and the layers `added`, each once, and `items'` has one entry for every layer of
`c'`: the one that it had in `items` for a layer of `c`, and for the layers `added` the values that `fresh` made
one after the other. -/
structure InStep (fresh : σ → α × σ) (added : List Int) (c c' : Column) (items items' : Array α)
    (supply supply' : σ) : Prop where
  wider : c'.bottom ≤ c.bottom ∧ c.top ≤ c'.top
  mem_added : ∀ k, k ∈ added ↔ (c'.bottom ≤ k ∧ k ≤ c'.top) ∧ ¬(c.bottom ≤ k ∧ k ≤ c.top)
  nodup : added.Nodup
  size : items'.size = c'.slots.size
  kept : ∀ k, c.bottom ≤ k ∧ k ≤ c.top → c'.itemAt? items' k = c.itemAt? items k
  made : added.map (c'.itemAt? items') = (Extension.make fresh added.length supply).1.map some
  supply : supply' = (Extension.make fresh added.length supply).2

/-! ## One layer -/

theorem itemAt?_of_mem {k : Int} (h : c.bottom ≤ k ∧ k ≤ c.top) (items : Array α) :
    c.itemAt? items k = items[(k - c.bottom).toNat]? := by
  simp [itemAt?, offset?_eq_some h]

theorem Extends.itemAt?_eq {k : Int} (he : Extends layer c c') (h : min c.bottom layer ≤ k ∧ k ≤ max c.top layer)
    (items : Array α) : c'.itemAt? items k = items[(k - min c.bottom layer).toNat]? := by
  rw [itemAt?_of_mem (by rwa [he.bottom, he.top]), he.bottom]

theorem size_slots (c : Column) : (c.slots.size : Int) = c.top - c.bottom + 1 := by
  unfold top
  omega

/-- The column grows exactly if it has to. -/
theorem growth?_eq_none_iff : c.growth? layer = none ↔ c.bottom ≤ layer ∧ layer ≤ c.top := by
  refine ⟨mem_of_growth, ?_⟩
  rintro ⟨hbottom, htop⟩
  simp [growth?, Int.not_lt.2 hbottom, Int.not_lt.2 htop]

theorem length_range (m n : Int) : (Int.range m n).length = (n - m).toNat := by simp [Int.range]

theorem range_eq_nil {m n : Int} (h : n ≤ m) : Int.range m n = [] := by
  rw [← List.length_eq_zero_iff, length_range]
  omega

theorem nodup_range (m n : Int) : (Int.range m n).Nodup := by
  unfold Int.range
  exact List.nodup_range.map fun i j hij => by simpa using hij

theorem mem_gained {k bottom top layer : Int} :
    k ∈ gained bottom top layer ↔ (layer ≤ k ∧ k < bottom) ∨ (top < k ∧ k ≤ layer) := by
  simp only [gained, List.mem_append, Int.mem_range_iff]
  omega

/-- A range grows in one direction, so no layer is added at both ends. -/
theorem nodup_gained {bottom top : Int} (h : bottom ≤ top + 1) (layer : Int) : (gained bottom top layer).Nodup := by
  refine List.Nodup.append (nodup_range ..) (nodup_range ..) fun k hbelow habove => ?_
  rw [Int.mem_range_iff] at hbelow habove
  omega

theorem length_gained {bottom top : Int} (h : bottom ≤ top + 1) (layer : Int) :
    (gained bottom top layer).length = (max (bottom - layer) (layer - top)).toNat := by
  rw [gained, List.length_append, length_range, length_range]
  omega

/-- What is made for consecutive layers stands in the array from the place of the first one on. -/
theorem map_range_item {values : List α} {m n : Int} {f : Int → Option α} (hlen : values.length = (n - m).toNat)
    (hf : ∀ i (h : i < values.length), f (m + i) = some values[i]) : (Int.range m n).map f = values.map some := by
  apply List.ext_getElem
  · simp [length_range, hlen]
  · intro i hi hi'
    have hlt : i < values.length := by simpa using hi'
    simp [Int.range, hf i hlt]

/-- New entries that come before the old ones stand at the layers below the old bottom. -/
theorem Extends.prepend (he : Extends layer c c') (hlt : layer < c.bottom) (hitems : items.size = c.slots.size)
    {values : List α} (hlen : values.length = (c.bottom - layer).toNat) :
    (values.toArray ++ items).size = c'.slots.size ∧
      (∀ k, c.bottom ≤ k ∧ k ≤ c.top → c'.itemAt? (values.toArray ++ items) k = c.itemAt? items k) ∧
      (gained c.bottom c.top layer).map (c'.itemAt? (values.toArray ++ items)) = values.map some := by
  have hsize := c.size_slots
  have hsize' := c'.size_slots
  rw [he.bottom, he.top] at hsize'
  have hmin : min c.bottom layer = layer := by omega
  have hgained : gained c.bottom c.top layer = Int.range layer c.bottom := by
    simp [gained, range_eq_nil (show layer + 1 ≤ c.top + 1 by omega)]
  refine ⟨?_, ?_, ?_⟩
  · simp only [Array.size_append, List.size_toArray]
    omega
  · -- the bottom moves down by as many layers as entries are put in front
    intro k hk
    have hindex : (k - layer).toNat - values.length = (k - c.bottom).toNat := by omega
    have hbehind : values.toArray.size ≤ (k - layer).toNat := by
      rw [List.size_toArray]
      omega
    rw [he.itemAt?_eq (by omega), itemAt?_of_mem hk, hmin, Array.getElem?_append_right hbehind, List.size_toArray,
      hindex]
  · rw [hgained]
    apply map_range_item hlen
    intro i hi
    have hindex : (layer + i - layer).toNat = i := by omega
    rw [he.itemAt?_eq (by omega), hmin, hindex, Array.getElem?_append_left hi]
    simp [hi]

/-- New entries that come after the old ones stand at the layers above the old top. -/
theorem Extends.append (he : Extends layer c c') (hgt : c.top < layer) (hge : c.bottom ≤ layer)
    (hitems : items.size = c.slots.size) {values : List α} (hlen : values.length = (layer - c.top).toNat) :
    (items ++ values.toArray).size = c'.slots.size ∧
      (∀ k, c.bottom ≤ k ∧ k ≤ c.top → c'.itemAt? (items ++ values.toArray) k = c.itemAt? items k) ∧
      (gained c.bottom c.top layer).map (c'.itemAt? (items ++ values.toArray)) = values.map some := by
  have hsize := c.size_slots
  have hsize' := c'.size_slots
  rw [he.bottom, he.top] at hsize'
  have hmin : min c.bottom layer = c.bottom := by omega
  have hgained : gained c.bottom c.top layer = Int.range (c.top + 1) (layer + 1) := by
    simp [gained, range_eq_nil hge]
  refine ⟨?_, ?_, ?_⟩
  · simp only [Array.size_append, List.size_toArray]
    omega
  · intro k hk
    rw [he.itemAt?_eq (by omega), itemAt?_of_mem hk, hmin, Array.getElem?_append_left (by omega)]
  · rw [hgained]
    apply map_range_item (by omega)
    intro i hi
    have hindex : (c.top + 1 + i - c.bottom).toNat - items.size = i := by omega
    rw [he.itemAt?_eq (by omega), hmin, Array.getElem?_append_right (by omega), hindex]
    simp [hi]

/-- An array that follows the growth of a column to one layer stays in step. -/
theorem Extends.inStep (he : Extends layer c c') (hitems : items.size = c.slots.size) (fresh : σ → α × σ)
    (supply : σ) :
    InStep fresh (gained c.bottom c.top layer) c c' items
      (Extension.follow fresh (c.growth? layer) items supply).1 supply
      (Extension.follow fresh (c.growth? layer) items supply).2 := by
  have hsize := c.size_slots
  have hwider : c'.bottom ≤ c.bottom ∧ c.top ≤ c'.top := by
    rw [he.bottom, he.top]
    omega
  have hmem : ∀ k, k ∈ gained c.bottom c.top layer ↔
      (c'.bottom ≤ k ∧ k ≤ c'.top) ∧ ¬(c.bottom ≤ k ∧ k ≤ c.top) := by
    intro k
    rw [mem_gained, he.bottom, he.top]
    omega
  have hnodup := nodup_gained (show c.bottom ≤ c.top + 1 by omega) layer
  have hlength := length_gained (show c.bottom ≤ c.top + 1 by omega) layer
  cases hg : c.growth? layer with
  | none =>
    obtain ⟨hbottom, htop⟩ := mem_of_growth hg
    have hnil : gained c.bottom c.top layer = [] := List.eq_nil_of_length_eq_zero (by omega)
    rw [hnil] at hmem hnodup ⊢
    refine ⟨hwider, hmem, hnodup, ?_, ?_, rfl, rfl⟩
    · have hsize' := c'.size_slots
      rw [he.bottom, he.top] at hsize'
      show items.size = c'.slots.size
      omega
    · intro k hk
      show c'.itemAt? items k = c.itemAt? items k
      rw [he.itemAt?_eq (by omega), itemAt?_of_mem hk, Int.min_eq_left hbottom]
  | some g =>
    rcases growth_cases hg with ⟨hlt, rfl⟩ | ⟨hge, hgt, rfl⟩
    · have hdiff : (gained c.bottom c.top layer).length = (c.bottom - layer).toNat := by omega
      have hlen := Extension.length_make fresh (c.bottom - layer).toNat supply
      obtain ⟨hsize', hkept, hmade⟩ := he.prepend hlt hitems hlen
      simp only [Extension.follow, Option.elim_some, Extension.applyWith, Bool.false_eq_true, if_false]
      exact ⟨hwider, hmem, hnodup, hsize', hkept, by rw [hmade, hdiff], by rw [hdiff]⟩
    · have hdiff : (gained c.bottom c.top layer).length = (layer - c.top).toNat := by omega
      have hlen := Extension.length_make fresh (layer - c.top).toNat supply
      obtain ⟨hsize', hkept, hmade⟩ := he.append hgt hge hitems hlen
      simp only [Extension.follow, Option.elim_some, Extension.applyWith, if_true]
      exact ⟨hwider, hmem, hnodup, hsize', hkept, by rw [hmade, hdiff], by rw [hdiff]⟩

/-! ## One layer after the other -/

theorem InStep.refl (h : items.size = c.slots.size) (fresh : σ → α × σ) (supply : σ) :
    InStep fresh [] c c items items supply supply :=
  ⟨by omega, fun k => by simp, List.nodup_nil, h, fun _ _ => rfl, rfl, rfl⟩

/-- An array that stays in step twice stays in step. -/
theorem InStep.trans (h : InStep fresh added c c₁ items items₁ supply supply₁)
    (h₁ : InStep fresh added₁ c₁ c' items₁ items' supply₁ supply') :
    InStep fresh (added ++ added₁) c c' items items' supply supply' := by
  have hwider := h.wider
  have hwider₁ := h₁.wider
  have hkept : added.map (c'.itemAt? items') = added.map (c₁.itemAt? items₁) :=
    List.map_congr_left fun k hk => h₁.kept k ((h.mem_added k).1 hk).1
  refine ⟨by omega, fun k => ?_, ?_, h₁.size, fun k hk => ?_, ?_, ?_⟩
  · rw [List.mem_append, h.mem_added, h₁.mem_added]
    omega
  · -- what the second step adds lies outside of the range after the first
    refine h.nodup.append h₁.nodup fun k hk hk₁ => ?_
    exact ((h₁.mem_added k).1 hk₁).2 ((h.mem_added k).1 hk).1
  · rw [h₁.kept k (by omega), h.kept k hk]
  · rw [List.map_append, hkept, h.made, h₁.made, h.supply, List.length_append, Extension.make_add, List.map_append]
  · rw [h₁.supply, h.supply, List.length_append, Extension.make_add]

theorem Spans.refl (c : Column) : Spans [] c c where
  bottom := by simp [isLeast_singleton]
  top := by simp [isGreatest_singleton]
  layer _ := rfl

theorem isLeast_cons {β : Type} [LinearOrder β] {a b x : β} {rest : List β}
    (h : IsLeast (insert (min a b) {k | k ∈ rest}) x) : IsLeast (insert a {k | k ∈ b :: rest}) x := by
  obtain ⟨hmem, hle⟩ := h
  have hmin : x ≤ a ∧ x ≤ b := le_min_iff.1 (hle (Set.mem_insert ..))
  refine ⟨?_, ?_⟩
  · rcases hmem with rfl | hmem
    · rcases min_choice a b with h | h <;> simp [h]
    · exact .inr (List.mem_cons_of_mem b hmem)
  · rintro k (rfl | hk)
    · exact hmin.1
    · rcases List.mem_cons.1 hk with rfl | hk
      · exact hmin.2
      · exact hle (.inr hk)

theorem Extends.spans_cons {layers : List Int} (he : Extends layer c c₁) (h : Spans layers c₁ c') :
    Spans (layer :: layers) c c' where
  bottom := isLeast_cons (he.bottom ▸ h.bottom)
  top := by
    have htop : IsGreatest (insert (max c.top layer) {k | k ∈ layers}) c'.top := he.top ▸ h.top
    exact isLeast_cons (β := Intᵒᵈ) htop
  layer k := (h.layer k).trans (he.layer k)

/-- The order of the layers does not matter, and neither does how often one of them is named. -/
theorem Spans.unique {layers layers' : List Int} (h : Spans layers c c₁) (h' : Spans layers' c c')
    (hmem : ∀ k, k ∈ layers' ↔ k ∈ layers) :
    c'.bottom = c₁.bottom ∧ c'.top = c₁.top ∧ ∀ k, c'.layer k = c₁.layer k := by
  have hset : {k | k ∈ layers'} = {k | k ∈ layers} := Set.ext hmem
  have hbottom := hset ▸ h'.bottom
  have htop := hset ▸ h'.top
  exact ⟨hbottom.unique h.bottom, htop.unique h.top, fun k => (h'.layer k).trans (h.layer k).symm⟩

/-- Reaching one layer after the other never faults. -/
theorem extendAll_ok (fresh : σ → α × σ) (layers : List Int) (hitems : items.size = c.slots.size) (supply : σ)
    (s : Session) :
    ∃ c' items' supply' t, extendAll fresh layers c items supply s = .ok (c', items', supply') t ∧
      Spans layers c c' ∧ InStep fresh (gainedAll c.bottom c.top layers) c c' items items' supply supply' := by
  induction layers generalizing c items supply s with
  | nil => exact ⟨c, items, supply, s, rfl, .refl c, .refl hitems fresh supply⟩
  | cons layer rest ih =>
    obtain ⟨c₁, s₁, hrun, he, -⟩ := extendTo_ok c layer s
    have hstep := he.inStep hitems fresh supply
    obtain ⟨c', items', supply', t, hrest, hspans, hin⟩ := ih hstep.size _ s₁
    rw [he.bottom, he.top] at hin
    exact ⟨c', items', supply', t, (Run.bind_of_ok hrun _).trans hrest, he.spans_cons hspans, hstep.trans hin⟩

/-- Growth is aligned and does not depend on the order. A column of any history has as many slots as its range has
layers, and it grows exactly if the layer lies outside of its range. Reaching one layer after the other never faults.
The column ends in the hull of its range and the layers, in whatever order they came, and no layer holds anything
else than before. An array with one entry for every layer that follows each growth has one entry for every layer in
the end: every old layer has the entry that it had, and the added layers have the values that were made, in the order
in which the column grew and from the lowest layer up in each step. -/
theorem extendAll_inStep {bottom top : Int} {background : BlockState} {ops : List Op}
    (h : History bottom top background ops c) (hitems : items.size = c.slots.size) (fresh : σ → α × σ) (supply : σ)
    (layers : List Int) (s : Session) :
    let m := (BlockMap.constant bottom top background).after ops
    (c.bottom = m.bottom ∧ c.top = m.top ∧ (c.slots.size : Int) = m.top - m.bottom + 1) ∧
      (∀ layer s, ∃ growth c' t, c.extendTo layer s = .ok (growth, c') t ∧
        (growth = none ↔ m.bottom ≤ layer ∧ layer ≤ m.top)) ∧
      ∃ c' items' supply' t, extendAll fresh layers c items supply s = .ok (c', items', supply') t ∧
        Spans layers c c' ∧ InStep fresh (gainedAll c.bottom c.top layers) c c' items items' supply supply' ∧
        (c'.slots.size : Int) = c'.top - c'.bottom + 1 ∧
        ∀ layers' s₁, layers'.Perm layers → ∃ c₁ items₁ supply₁ t₁,
          extendAll fresh layers' c items supply s₁ = .ok (c₁, items₁, supply₁) t₁ ∧
          c₁.bottom = c'.bottom ∧ c₁.top = c'.top ∧ ∀ k, c₁.layer k = c'.layer k := by
  intro m
  have hc : Refines c m := refines_of_history h
  obtain ⟨c', items', supply', t, hrun, hspans, hin⟩ := extendAll_ok fresh layers hitems supply s
  refine ⟨⟨hc.bottom, hc.top, ?_⟩, ?_, c', items', supply', t, hrun, hspans, hin, c'.size_slots, ?_⟩
  · rw [← hc.bottom, ← hc.top, size_slots]
  · intro layer s
    obtain ⟨c₁, t₁, hextend, -⟩ := extendTo_ok c layer s
    exact ⟨_, c₁, t₁, hextend, by rw [growth?_eq_none_iff, hc.bottom, hc.top]⟩
  · intro layers' s₁ hperm
    obtain ⟨c₁, items₁, supply₁, t₁, hrun₁, hspans₁, -⟩ := extendAll_ok fresh layers' hitems supply s₁
    exact ⟨c₁, items₁, supply₁, t₁, hrun₁, hspans.unique hspans₁ fun k => hperm.mem_iff⟩

/-- Layers 0 to 3 with the entries 10 to 13: the column reaches 2, which it has, then -2 and then 5, and the new
entries count from 100. -/
theorem extendAll_inStep_down_and_up :
    ∃ c, History 0 3 .reserved [] c ∧ ∀ s, ∃ c' items' supply' t,
      extendAll (fun n : Nat => (n, n + 1)) [2, -2, 5] c #[10, 11, 12, 13] 100 s = .ok (c', items', supply') t ∧
      c'.bottom = -2 ∧ c'.top = 5 ∧ c'.slots.size = 8 ∧
      [-2, -1, 4, 5].map (c'.itemAt? items') = [some 100, some 101, some 102, some 103] ∧
      c'.itemAt? items' 0 = some 10 ∧ c'.itemAt? items' 3 = some 13 := by
  obtain ⟨c, t, hc⟩ := create_ok .reserved (show (0 : Int) ≤ 3 by decide) {}
  obtain ⟨hbottom, htop, -⟩ := create_eq_ok hc
  have hsize := c.size_slots
  rw [hbottom, htop] at hsize
  have hitems : (#[10, 11, 12, 13] : Array Nat).size = c.slots.size := by
    simp only [List.size_toArray, List.length_cons, List.length_nil]
    omega
  refine ⟨c, .create hc, ?_⟩
  intro s
  obtain ⟨-, -, c', items', supply', t, hrun, hspans, hin, hsize', -⟩ :=
    extendAll_inStep (.create hc) hitems (fun n : Nat => (n, n + 1)) 100 [2, -2, 5] s
  have hbottom' : c'.bottom = -2 := hspans.bottom.unique (by simp [hbottom, IsLeast, lowerBounds])
  have htop' : c'.top = 5 := hspans.top.unique (by simp [htop, IsGreatest, upperBounds])
  have hold : ∀ k, 0 ≤ k ∧ k ≤ 3 → c'.itemAt? items' k = #[10, 11, 12, 13][k.toNat]? := by
    intro k hk
    rw [hin.kept k (by omega), itemAt?_of_mem (by omega), hbottom, Int.sub_zero]
  have hmade := hin.made
  rw [hbottom, htop] at hmade
  rw [hbottom', htop'] at hsize'
  exact ⟨c', items', supply', t, hrun, hbottom', htop', by omega, hmade, hold 0 (by decide), hold 3 (by decide)⟩

end Column

end VoxelStore
