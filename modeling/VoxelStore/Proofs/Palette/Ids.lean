import VoxelStore.Bits.Width
import VoxelStore.Palette.Section
/-!
# Ids and their ordinals

A stored section has room for an id up to the width that the palette gives its ids, and cuts what is above it. As
long as ids are 32-bit numbers no id is cut. A palette may have more ids than that: then every ordinal stands for one
of the first `2 ^ 32` ids (`exists_ordinal`), but the width is that of a smaller palette, and may have room for none of
them. `resolve_iff` says which ordinals are found again through their id, and `idFits_iff` in which palettes all are.
-/

namespace VoxelStore

namespace GlobalPalette

variable {g : GlobalPalette} {ordinals : List BlockState} {v : BlockState} {i j id : Nat}

theorem bits_le (g : GlobalPalette) : g.bits ≤ 32 := by
  refine bitLength_le_iff.2 ?_
  exact Nat.mod_lt _ (by decide)

/-- Each of the given ordinals stands for an id. -/
def Covers (g : GlobalPalette) (ordinals : List BlockState) : Prop := ∀ v ∈ ordinals, v ∈ g.ordinals

/-- The width of an id has room for the id of the ordinal. -/
def IdFits (g : GlobalPalette) (v : BlockState) : Prop := ∀ id, g.idOf v = .ok id → id.toNat < 2 ^ g.bits

/-! ## From an id to its ordinal and back -/

theorem idOf_ordinal (h : id < g.ordinals.size) : g.idOf g.ordinals[id] = .ok (UInt32.ofNat id) := by
  rw [idOf, g.mapsBack id h]

/-- An ordinal says which 32-bit number its id is. -/
theorem ordinals_injective (hi : i < g.ordinals.size) (hj : j < g.ordinals.size) (hi32 : i < UInt32.size)
    (hj32 : j < UInt32.size) (heq : g.ordinals[i] = g.ordinals[j]) : i = j := by
  have hback := g.mapsBack i hi
  rw [heq, g.mapsBack j hj, Option.some.injEq] at hback
  have hnat := congrArg UInt32.toNat hback
  rw [UInt32.toNat_ofNat_of_lt' hi32, UInt32.toNat_ofNat_of_lt' hj32] at hnat
  exact hnat.symm

/-- If all 32-bit numbers are ids, all ordinals stand for one of them. -/
theorem exists_ordinal (h : UInt32.size ≤ g.size) (v : BlockState) :
    ∃ k : Nat, k < UInt32.size ∧ g.ordinals[k]? = some v := by
  have hlt : ∀ k : Fin UInt32.size, k.val < g.ordinals.size := fun k => Nat.lt_of_lt_of_le k.isLt h
  let ordinal : Fin UInt32.size → UInt32 := fun k =>
    have hk := hlt k
    g.ordinals[k.val]
  have hinjective : Function.Injective ordinal := fun i j heq =>
    Fin.ext (ordinals_injective (hlt i) (hlt j) i.isLt j.isLt heq)
  -- there are as many ordinals as such ids
  have hequiv : Fin UInt32.size ≃ UInt32 := ⟨UInt32.ofFin, UInt32.toFin, UInt32.toFin_ofFin, UInt32.ofFin_toFin⟩
  obtain ⟨k, rfl⟩ := hinjective.surjective_of_finite hequiv v
  exact ⟨k.val, k.isLt, Array.getElem?_eq_getElem (hlt k)⟩

/-- An ordinal that stands for an id stands for the one that the table of ids has for it. -/
theorem exists_idOf (hv : v ∈ g.ordinals) : ∃ id, g.idOf v = .ok id ∧ g.ordinals[id.toNat]? = some v := by
  have hfirst : ∃ k : Nat, k < UInt32.size ∧ g.ordinals[k]? = some v := by
    rcases Nat.lt_or_ge g.size UInt32.size with hsize | hsize
    · obtain ⟨k, hk, rfl⟩ := Array.mem_iff_getElem.1 hv
      exact ⟨k, Nat.lt_trans hk hsize, Array.getElem?_eq_getElem hk⟩
    · exact exists_ordinal hsize v
  obtain ⟨k, h32, hk⟩ := hfirst
  obtain ⟨hlt, rfl⟩ := Array.getElem?_eq_some_iff.1 hk
  refine ⟨_, idOf_ordinal hlt, ?_⟩
  rw [UInt32.toNat_ofNat_of_lt' h32, hk]

/-! ## Ids that are cut to their width -/

/-- As long as there are no more ids than 32-bit numbers, the width has room for each of them. -/
theorem lt_two_pow_bits (h : g.size ≤ UInt32.size) (hid : id < g.size) : id < 2 ^ g.bits := by
  have hmod : (g.size - 1) % UInt32.size = g.size - 1 :=
    Nat.mod_eq_of_lt (Nat.lt_of_lt_of_le (Nat.sub_lt g.nonempty Nat.one_pos) h)
  have hlast := lt_two_pow_bitLength (g.size - 1)
  rw [bits, hmod]
  omega

/-- What is read for the id of an ordinal, cut to its width, is the ordinal if it stands for an id that fits. -/
theorem resolve_iff {id : UInt32} (h : g.idOf v = .ok id) :
    Palette.global.resolve g (UInt64.ofNat (id.toNat % 2 ^ g.bits)) = .ok v ↔
      v ∈ g.ordinals ∧ id.toNat < 2 ^ g.bits := by
  have h32 : id.toNat % 2 ^ g.bits < UInt32.size := Nat.lt_of_le_of_lt (Nat.mod_le ..) id.toNat_lt_size
  have h64 : (UInt64.ofNat (id.toNat % 2 ^ g.bits)).toNat = id.toNat % 2 ^ g.bits :=
    UInt64.toNat_ofNat_of_lt' (Nat.lt_trans h32 (by decide))
  have hread : Palette.global.resolve g (UInt64.ofNat (id.toNat % 2 ^ g.bits)) = .ok v ↔
      g.ordinals[id.toNat % 2 ^ g.bits]? = some v := by
    rw [Palette.resolve, ordinalOf, h64]
    cases g.ordinals[id.toNat % 2 ^ g.bits]? <;> simp
  rw [hread]
  constructor
  · intro hget
    obtain ⟨hlt, rfl⟩ := Array.getElem?_eq_some_iff.1 hget
    rw [idOf_ordinal hlt, Except.ok.injEq] at h
    have hcut := congrArg UInt32.toNat h
    rw [UInt32.toNat_ofNat_of_lt' h32] at hcut
    exact ⟨Array.getElem_mem hlt, hcut ▸ Nat.mod_lt _ (Nat.two_pow_pos _)⟩
  · rintro ⟨hv, hfits⟩
    obtain ⟨id', hid', hget⟩ := exists_idOf hv
    cases h.symm.trans hid'
    rwa [Nat.mod_eq_of_lt hfits]

theorem idFits_iff_lt {id : UInt32} (h : g.idOf v = .ok id) : g.IdFits v ↔ id.toNat < 2 ^ g.bits := by
  constructor
  · exact fun hfits => hfits id h
  · intro hlt id' hid'
    cases h.symm.trans hid'
    exact hlt

theorem idFits_of_size (h : g.size ≤ UInt32.size) (hv : v ∈ g.ordinals) : g.IdFits v := by
  intro id hid
  obtain ⟨id', hid', hget⟩ := exists_idOf hv
  cases hid.symm.trans hid'
  exact lt_two_pow_bits h (Array.getElem?_eq_some_iff.1 hget).1

/-- The ids of all ordinals fit if and only if there are no more than `2 ^ 32` of them, or their width is that of all
32-bit numbers. -/
theorem idFits_iff : (∀ v ∈ g.ordinals, g.IdFits v) ↔ g.size ≤ UInt32.size ∨ g.bits = 32 := by
  constructor
  · intro h
    by_cases hsize : g.size ≤ UInt32.size
    · exact .inl hsize
    · have hsize := Nat.lt_of_not_le hsize
      have hlast : UInt32.size - 1 < g.ordinals.size := Nat.lt_of_le_of_lt (Nat.sub_le ..) hsize
      have hfits := h _ (Array.getElem_mem hlast) _ (idOf_ordinal hlast)
      rw [UInt32.toNat_ofNat_of_lt' (by decide)] at hfits
      refine .inr (Nat.le_antisymm g.bits_le (Nat.le_of_not_lt fun hlt => ?_))
      have hpow : 2 ^ g.bits < UInt32.size := Nat.pow_lt_pow_right (by decide) hlt
      exact Nat.not_le_of_lt hfits (Nat.le_pred_of_lt hpow)
  · rintro (hsize | hbits) v hv
    · exact idFits_of_size hsize hv
    · intro id _
      rw [hbits]
      exact id.toNat_lt

/-! ## A palette of any number of ids -/

/-- The palette of `n` ids that stand for the ordinals in order, beginning again after the last ordinal. -/
def counting (n : Nat) (h : 0 < n) : GlobalPalette where
  ids := Array.ofFn (n := n) fun i => UInt32.ofNat i
  ordinals := Array.ofFn (n := n) fun i => UInt32.ofNat i
  nonempty := by rwa [Array.size_ofFn]
  mapsBack := by
    intro id hid
    rw [Array.size_ofFn] at hid
    have hlt : id % UInt32.size < n := Nat.lt_of_le_of_lt (Nat.mod_le ..) hid
    have hnat : (UInt32.ofNat id).toNat = id % UInt32.size := UInt32.toNat_ofNat'
    simp only [Array.getElem_ofFn, hnat, Array.getElem?_ofFn, dif_pos hlt]
    exact congrArg some (UInt32.ofNat_eq_iff_mod_eq_toNat _ _ |>.2 (by simp))

section

variable {n : Nat} {h : 0 < n}

theorem size_counting : (counting n h).size = n := Array.size_ofFn

theorem idOf_counting (hv : v.toNat < n) : (counting n h).idOf v = .ok v := by
  have hlt : v.toNat < (counting n h).ids.size := by rwa [counting, Array.size_ofFn]
  rw [idOf, Array.getElem?_eq_getElem hlt]
  simp [counting]

theorem ordinals_counting {k : Nat} (hk : k < n) : (counting n h).ordinals[k]? = some (UInt32.ofNat k) := by
  simp [counting, hk]

theorem covers_counting (hn : UInt32.size ≤ n) (ordinals : List BlockState) : (counting n h).Covers ordinals := by
  intro v _
  obtain ⟨k, -, hk⟩ := exists_ordinal (g := counting n h) (by rwa [size_counting]) v
  exact Array.mem_of_getElem? hk

end

/-- The palette of one id more than there are 32-bit numbers. Its ids have the width of a single one. -/
def wrapping : GlobalPalette := counting (UInt32.size + 1) (Nat.succ_pos _)

theorem size_wrapping : wrapping.size = UInt32.size + 1 := size_counting

theorem bits_wrapping : wrapping.bits = 0 := by
  rw [bits, size_wrapping, Nat.add_sub_cancel, Nat.mod_self]
  rfl

theorem idOf_wrapping (v : BlockState) : wrapping.idOf v = .ok v :=
  idOf_counting (Nat.lt_succ_of_lt v.toNat_lt_size)

theorem ordinalOf_wrapping (id : UInt64) (h : id.toNat ≤ UInt32.size) : wrapping.ordinalOf id = some id.toUInt32 := by
  rw [ordinalOf, wrapping, ordinals_counting (Nat.lt_succ_of_le h)]
  rfl

theorem covers_wrapping (ordinals : List BlockState) : wrapping.Covers ordinals :=
  covers_counting (Nat.le_succ _) ordinals

/-- Every id but the first is cut. -/
theorem idFits_wrapping_iff : wrapping.IdFits v ↔ v = 0 := by
  rw [idFits_iff_lt (idOf_wrapping v), bits_wrapping, Nat.pow_zero, Nat.lt_one_iff, ← UInt32.toNat_inj,
    UInt32.toNat_zero]

end GlobalPalette

end VoxelStore
