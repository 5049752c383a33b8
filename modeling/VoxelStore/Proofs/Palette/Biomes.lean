import VoxelStore.Palette.BiomeGrid
import VoxelStore.Proofs.Packed.Canonical
import VoxelStore.Proofs.Palette.Encoding
/-!
# What the stored form of a biome grid stands for

The palette of a grid is found by looking through it from the front, which gives the distinct biomes in the order
of first sight (`palette_eq`). One biome needs no entries; up to eight are indices of the least width that has
room for them, and more are global ids. `Encodes` says which of these forms a section has, and which of its cells
read their biomes. A cell that is unset counts as the default, and nothing else of the grid is seen
(`encode_congr`).
-/

namespace VoxelStore

/-- Up to eight biomes have a palette of their own, with indices of the least width that has room. -/
theorem PaletteKind.localBits_biomes {len : Nat} (h : len ≤ UInt32.size) :
    biomes.localBits len = if len ≤ 8 then some (bitLength (len - 1)) else none := by
  have hmax : 2 ^ biomes.maxBits = 8 := rfl
  have hmin : biomes.minBits = 0 := rfl
  rw [localBits_eq biomes h, hmax, hmin, Nat.zero_max]
  split
  · next hone => rw [Nat.sub_eq_zero_of_le hone, if_pos (Nat.le_trans hone (by decide)), bitLength_zero]
  · rfl

namespace BiomeGrid

variable {biomes : Array UInt32} {cells cells' : Array (Option Biome)} {d d' : Biome} {g : GlobalPalette}

/-! ## The palette -/

/-- The distinct biomes, in the order of first sight. -/
def distinct (biomes : Array UInt32) : List UInt32 := biomes.toList.eraseDups

theorem mem_distinct {biome : UInt32} : biome ∈ distinct biomes ↔ biome ∈ biomes := by
  rw [distinct, List.mem_eraseDups, Array.mem_toList_iff]

theorem toList_note (palette : Array UInt32) (biome : UInt32) :
    (note palette biome).toList =
      if biome ∈ palette.toList then palette.toList else palette.toList ++ [biome] := by
  unfold note
  by_cases h : biome ∈ palette
  · rw [if_pos (Array.contains_iff_mem.2 h), if_pos (Array.mem_toList_iff.2 h)]
  · rw [if_neg fun hc => h (Array.contains_iff_mem.1 hc), if_neg fun hc => h (Array.mem_toList_iff.1 hc),
      Array.toList_push]

theorem palette_eq (biomes : Array UInt32) : palette biomes = (distinct biomes).toArray := by
  have hlist : ∀ l : List UInt32, (l.foldl note #[]).toList = l.eraseDups := by
    intro l
    induction l using List.reverseRecOn with
    | nil => rfl
    | append_singleton l biome ih =>
      rw [List.foldl_append, List.foldl_cons, List.foldl_nil, toList_note, ih, eraseDups_concat]
      simp only [List.mem_eraseDups]
  rw [palette, ← Array.foldl_toList, distinct, ← hlist]

theorem length_distinct_le (biomes : Array UInt32) : (distinct biomes).length ≤ biomes.size :=
  length_eraseDups_le biomes.toList

theorem length_distinct_pos (h : 0 < biomes.size) : 0 < (distinct biomes).length :=
  List.length_pos_of_mem (mem_distinct.2 (Array.getElem_mem h))

/-- The index of a biome in the palette leads back to it, if the width has room for all indices. -/
theorem resolve_idxOf {bits : Nat} {biome : UInt32} (h32 : bits ≤ 32) (h : (distinct biomes).length ≤ 2 ^ bits)
    (hbiome : biome ∈ distinct biomes) (g : GlobalPalette) :
    (Palette.indirect (palette biomes)).resolve g
      (UInt64.ofNat ((UInt32.ofNat ((palette biomes).idxOf biome)).toNat % 2 ^ bits)) = .ok biome := by
  have hlt : (distinct biomes).idxOf biome < (distinct biomes).length := List.idxOf_lt_length_of_mem hbiome
  have hmax : 2 ^ bits ≤ UInt32.size := Nat.pow_le_pow_right (by decide) h32
  have hplace : (distinct biomes).idxOf biome < UInt32.size := Nat.lt_of_lt_of_le hlt (Nat.le_trans h hmax)
  have h64 : (UInt64.ofNat ((distinct biomes).idxOf biome)).toNat = (distinct biomes).idxOf biome :=
    UInt64.toNat_ofNat_of_lt' (Nat.lt_trans hplace (by decide))
  rw [palette_eq, List.idxOf_toArray, UInt32.toNat_ofNat_of_lt' hplace,
    Nat.mod_eq_of_lt (Nat.lt_of_lt_of_le hlt h), Palette.resolve, h64, List.getElem?_toArray,
    List.getElem?_idxOf hbiome]

/-! ## The section -/

/-- The section is the stored form of a grid: it has the palette that the number of its biomes asks for, and a cell
reads its biome unless that is stored by an id that is cut. -/
structure Encodes (s : PalettedSection) (g : GlobalPalette) (biomes : Array UInt32) : Prop where
  len : s.data.len = biomes.size
  value : ∀ i (h : i < biomes.size),
    s.get g i = pure biomes[i] ↔ (8 < (distinct biomes).length → g.IdFits biomes[i])
  nonAir : s.nonAir = 0
  single : ∀ biome, distinct biomes = [biome] → s = .single .biomes biome 0
  indirect : 1 < (distinct biomes).length → (distinct biomes).length ≤ 8 →
    s.palette = .indirect (distinct biomes).toArray ∧ ∀ b, s.data.bits ≤ b ↔ (distinct biomes).length ≤ 2 ^ b
  global : 8 < (distinct biomes).length → s.palette = .global ∧ s.data.bits = g.bits

/-- The section decodes to the biomes if none of their ids is cut. -/
theorem Encodes.decode_iff {s : PalettedSection} (h : Encodes s g biomes) :
    s.decode g = pure biomes ↔ (8 < (distinct biomes).length → ∀ biome ∈ distinct biomes, g.IdFits biome) := by
  rw [PalettedSection.decode_eq_pure_iff]
  constructor
  · rintro ⟨-, hget⟩ hmany biome hbiome
    obtain ⟨i, hi, rfl⟩ := Array.mem_iff_getElem.1 (mem_distinct.1 hbiome)
    exact (h.value i hi).1 (hget i hi) hmany
  · intro hfits
    exact ⟨h.len.symm, fun i hi => (h.value i hi).2 fun hmany =>
      hfits hmany _ (mem_distinct.2 (Array.getElem_mem hi))⟩

/-- What is read for a packed number is what its lower bits stand for. -/
theorem get_of_ofValues {bits i : Nat} {entries : Array UInt32} {a : Packed} (ha : Packed.ofValues bits entries = .ok a)
    (hi : i < entries.size) (palette : Palette) (g : GlobalPalette) :
    (PalettedSection.mk .biomes palette a 0).get g i =
      ExceptT.mk (.ok (palette.resolve g (UInt64.ofNat (entries[i].toNat % 2 ^ bits)))) := by
  obtain ⟨h32, hlen, rfl, -, hwords⟩ := Packed.ofValues_eq_ok ha
  rw [← hlen] at hwords
  obtain ⟨x, hget, hx⟩ := Packed.get_of_packed hlen.symm (Nat.le_trans h32 (by decide)) hwords hi
  have hi' : i < a.len := hlen.symm ▸ hi
  rw [PalettedSection.get_of_entry (s := ⟨.biomes, palette, a, 0⟩) hi' hget g, ← hx, UInt64.ofNat_toNat]

/-- One biome in all cells needs no entries. -/
theorem encodes_single {biome : UInt32} (hsize : biomes.size = sectionBiomes) (h : distinct biomes = [biome]) :
    Encodes (.single .biomes biome 0) g biomes where
  len := hsize.symm
  value i hi := by
    have hmem : biomes[i] ∈ distinct biomes := mem_distinct.2 (Array.getElem_mem hi)
    rw [h, List.mem_singleton] at hmem
    rw [PalettedSection.get_of_lt (show i < sectionBiomes from hsize ▸ hi), hmem]
    exact iff_of_true rfl fun hmany => absurd hmany (by simp [h])
  nonAir := rfl
  single _ h' := by rw [List.head_eq_of_cons_eq (h.symm.trans h')]
  indirect hmore := absurd hmore (by simp [h])
  global hmore := absurd hmore (by simp [h])

/-- Up to eight biomes are found in the palette by indices of the least width. -/
theorem encodes_indirect (hmany : 1 < (distinct biomes).length) (h8 : (distinct biomes).length ≤ 8) :
    ∃ a, Packed.ofValues (bitLength ((distinct biomes).length - 1))
        (biomes.map fun biome => UInt32.ofNat ((palette biomes).idxOf biome)) = .ok a ∧
      Encodes ⟨.biomes, .indirect (palette biomes), a, 0⟩ g biomes := by
  have hwidth : ∀ b, bitLength ((distinct biomes).length - 1) ≤ b ↔ (distinct biomes).length ≤ 2 ^ b :=
    fun b => bitLength_pred_le_iff (Nat.lt_of_succ_lt hmany)
  have h3 : bitLength ((distinct biomes).length - 1) ≤ 3 := (hwidth 3).2 h8
  have h32 : bitLength ((distinct biomes).length - 1) ≤ 32 := Nat.le_trans h3 (by decide)
  obtain ⟨a, ha⟩ := Packed.ofValues_of_le h32 (biomes.map fun biome => UInt32.ofNat ((palette biomes).idxOf biome))
  obtain ⟨-, hlen, hbits, -⟩ := Packed.ofValues_eq_ok ha
  rw [Array.size_map] at hlen
  refine ⟨a, ha, hlen, fun i hi => ?_, rfl, fun biome hone => ?_, fun _ _ => ⟨?_, fun b => ?_⟩, fun hmore => ?_⟩
  · rw [get_of_ofValues ha (by rwa [Array.size_map]), Array.getElem_map,
      resolve_idxOf h32 ((hwidth _).1 (Nat.le_refl _)) (mem_distinct.2 (Array.getElem_mem hi))]
    exact iff_of_true rfl fun hmore => absurd h8 (Nat.not_le_of_lt hmore)
  · exact absurd hmany (by simp [hone])
  · exact congrArg Palette.indirect (palette_eq biomes)
  · rw [← hwidth b, ← hbits]
  · exact absurd h8 (Nat.not_le_of_lt hmore)

/-- More biomes are stored as ids of the global palette. -/
theorem encodes_global (hmany : 8 < (distinct biomes).length) (hg : g.Covers (distinct biomes)) :
    ∃ ids a, biomes.mapM g.idOf = .ok ids ∧ Packed.ofValues g.bits ids = .ok a ∧
      Encodes ⟨.biomes, .global, a, 0⟩ g biomes := by
  have hids : ∀ biome ∈ biomes, ∃ id, g.idOf biome = .ok id := by
    intro biome hbiome
    obtain ⟨id, hid, -⟩ := GlobalPalette.exists_idOf (hg biome (mem_distinct.2 hbiome))
    exact ⟨id, hid⟩
  obtain ⟨ids, hmapM, hmap⟩ := except_mapM_of_ok hids
  obtain ⟨a, ha⟩ := Packed.ofValues_of_le g.bits_le ids
  obtain ⟨-, hlen, hbits, -⟩ := Packed.ofValues_eq_ok ha
  have hsize : ids.size = biomes.size := by simpa using (congrArg Array.size hmap).symm
  refine ⟨ids, a, hmapM, ha, hlen.trans hsize, fun i hi => ?_, rfl, fun biome hone => ?_, fun _ hfew => ?_,
    fun _ => ⟨rfl, hbits⟩⟩
  · have hi' : i < ids.size := hsize.symm ▸ hi
    have hid : g.idOf biomes[i] = .ok ids[i] := by
      have hget : (biomes.map g.idOf)[i]? = (ids.map Except.ok)[i]? := by rw [hmap]
      simpa [hi, hi'] using hget
    have hknown := hg _ (mem_distinct.2 (Array.getElem_mem hi))
    rw [get_of_ofValues ha hi', Checked.mk_eq_pure_iff, GlobalPalette.resolve_iff hid, GlobalPalette.idFits_iff_lt hid]
    simp [hknown, hmany]
  · exact absurd hmany (by simp [hone])
  · exact absurd hfew (Nat.not_le_of_lt hmany)

/-- A grid of one section is encoded, if the global palette knows its biomes where they are more than eight. -/
theorem encode_encodes (hsize : cells.size = sectionBiomes)
    (hglobal : 8 < (distinct (resolved d cells)).length → g.Covers (distinct (resolved d cells))) :
    ∃ s, encode cells d g = .ok s ∧ Encodes s g (resolved d cells) := by
  have hsize' : (resolved d cells).size = sectionBiomes := by rw [resolved, Array.size_map, hsize]
  have hi : 0 < (resolved d cells).size := by rw [hsize']; decide
  have hpos := length_distinct_pos hi
  have hle := length_distinct_le (resolved d cells)
  have hlen : (palette (resolved d cells)).size = (distinct (resolved d cells)).length := by
    rw [palette_eq, List.size_toArray]
  have hlocal := PaletteKind.localBits_biomes (Nat.le_trans hle (hsize'.symm ▸ (by decide)))
  unfold encode
  rw [if_neg (not_not_intro hsize)]
  dsimp only
  rw [hlen, hlocal]
  generalize resolved d cells = biomes at *
  by_cases h8 : (distinct biomes).length ≤ 8
  · rw [if_pos h8]
    by_cases hone : (distinct biomes).length = 1
    · obtain ⟨biome, hbiome⟩ := List.length_eq_one_iff.1 hone
      have hfirst := mem_distinct.2 (Array.getElem_mem hi)
      rw [hbiome, List.mem_singleton] at hfirst
      refine ⟨.single .biomes biome 0, ?_, encodes_single hsize' hbiome⟩
      rw [hone, Array.getElem?_eq_getElem hi, hfirst]
      rfl
    · have hmany : 1 < (distinct biomes).length := Nat.lt_of_le_of_ne hpos (Ne.symm hone)
      obtain ⟨a, ha, hencodes⟩ := encodes_indirect (g := g) hmany h8
      -- the width is not zero, as one number does not have room for two biomes
      have hne : bitLength ((distinct biomes).length - 1) ≠ 0 := fun hzero =>
        hone (Nat.le_antisymm ((bitLength_pred_le_iff hpos).1 (Nat.le_of_eq hzero)) hpos)
      obtain ⟨k, hk⟩ := Nat.exists_eq_add_one_of_ne_zero hne
      rw [hk] at ha ⊢
      exact ⟨_, except_bind_eq_ok.2 ⟨a, ha, rfl⟩, hencodes⟩
  · rw [if_neg h8]
    have hmany := Nat.lt_of_not_le h8
    obtain ⟨ids, a, hids, ha, hencodes⟩ := encodes_global hmany (hglobal hmany)
    exact ⟨_, except_bind_eq_ok.2 ⟨ids, hids, except_bind_eq_ok.2 ⟨a, ha, rfl⟩⟩, hencodes⟩

/-- Grids of one section that resolve to the same biomes are encoded alike, whatever their defaults. -/
theorem encode_congr (hsize : cells.size = sectionBiomes) (hsize' : cells'.size = sectionBiomes)
    (h : resolved d cells = resolved d' cells') (g : GlobalPalette) : encode cells d g = encode cells' d' g := by
  have hfirst : 0 < (resolved d' cells').size := by
    rw [resolved, Array.size_map, hsize']
    decide
  unfold encode
  rw [if_neg (not_not_intro hsize), if_neg (not_not_intro hsize'), h]
  dsimp only
  rw [Array.getElem?_eq_getElem hfirst, Option.getD_some, Option.getD_some]

end BiomeGrid

end VoxelStore
