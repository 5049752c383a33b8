import VoxelStore.Proofs.Palette.Biomes
import VoxelStore.Proofs.Palette.GlobalIds
/-!
# The width of an entry

A section gets the width that the number of its distinct values asks for (`PaletteKind.entryBits`), up to the limit of
its kind for a palette of its own, and the width of the global ids beyond it. The first never shrinks when there are
more values. The second is wider than any of the first as long as the ids are 32-bit numbers: ids that tell so many
values apart are too many for a local index (`GlobalPalette.Covers.lt_bits`). Hence the width never shrinks in such a
palette, for blocks as for biomes, and says which palette a section has (`encode_width_monotone`). A palette of more
ids may give them fewer bits.
-/

namespace VoxelStore

namespace GlobalPalette

variable {g : GlobalPalette} {values : List UInt32} {b : Nat}

/-- There are at least as many ids as distinct values that are known. -/
theorem Covers.length_le (h : g.Covers values) (hnodup : values.Nodup) : values.length ≤ g.size := by
  have hsubset : values ⊆ g.ordinals.toList := fun v hv => Array.mem_toList_iff.2 (h v hv)
  exact (hnodup.subperm hsubset).length_le

/-- The ids of more than `2 ^ b` values are wider than `b` bits, if they are 32-bit numbers. -/
theorem Covers.lt_bits (h : g.Covers values) (hnodup : values.Nodup) (hmany : 2 ^ b < values.length)
    (hsize : g.size ≤ UInt32.size) : b < g.bits := by
  have hlen := h.length_le hnodup
  have hlast : g.size - 1 < 2 ^ g.bits := lt_two_pow_bits hsize (Nat.sub_lt g.nonempty Nat.one_pos)
  have hpow : 2 ^ b < 2 ^ g.bits := by omega
  exact (Nat.pow_lt_pow_iff_right (Nat.lt_succ_self 1)).1 hpow

end GlobalPalette

namespace PaletteKind

variable {kind : PaletteKind} {g : GlobalPalette} {values : List UInt32} {len len' : Nat}

/-- So many distinct values have ids that are wider than any index, if they are too many for a palette of their own. -/
def WideIds (kind : PaletteKind) (g : GlobalPalette) (len : Nat) : Prop :=
  2 ^ kind.maxBits < len → kind.maxBits < g.bits

/-- The ids of values that the global palette knows are wide enough, if they are 32-bit numbers. -/
theorem wideIds_of_covers (hcovers : 2 ^ kind.maxBits < values.length → g.Covers values) (hnodup : values.Nodup)
    (hsize : g.size ≤ UInt32.size) : kind.WideIds g values.length := fun hmany =>
  (hcovers hmany).lt_bits hnodup hmany hsize

/-- The width of the entries for so many distinct values. -/
def entryBits (kind : PaletteKind) (g : GlobalPalette) (len : Nat) : Nat := (kind.localBits len).getD g.bits

theorem entryBits_of_le_one (h : len ≤ 1) : kind.entryBits g len = 0 := by
  rw [entryBits, localBits_eq kind (Nat.le_trans h (by decide)), if_pos h]
  rfl

theorem entryBits_of_le (hmore : 1 < len) (hfew : len ≤ 2 ^ kind.maxBits) :
    kind.entryBits g len = max kind.minBits (bitLength (len - 1)) := by
  have hmax : 2 ^ kind.maxBits ≤ UInt32.size := by cases kind <;> decide
  rw [entryBits, localBits_eq kind (Nat.le_trans hfew hmax), if_neg (Nat.not_le_of_lt hmore), if_pos hfew]
  rfl

theorem entryBits_of_lt (hmany : 2 ^ kind.maxBits < len) (h32 : len ≤ UInt32.size) :
    kind.entryBits g len = g.bits := by
  have hmore : 1 < len := Nat.lt_of_le_of_lt (Nat.one_le_two_pow) hmany
  rw [entryBits, localBits_eq kind h32, if_neg (Nat.not_le_of_lt hmore), if_neg (Nat.not_le_of_lt hmany)]
  rfl

/-- The width of an index is not zero, and within the limits of its kind. -/
theorem entryBits_local (hmore : 1 < len) (hfew : len ≤ 2 ^ kind.maxBits) :
    max kind.minBits 1 ≤ kind.entryBits g len ∧ kind.entryBits g len ≤ kind.maxBits := by
  have hmin : kind.minBits ≤ kind.maxBits := by cases kind <;> decide
  have hpos : 0 < bitLength (len - 1) := by
    rw [← Nat.not_le, bitLength_le_iff]
    omega
  have hroom : bitLength (len - 1) ≤ kind.maxBits := (bitLength_pred_le_iff (by omega)).2 hfew
  rw [entryBits_of_le hmore hfew]
  omega

/-- The width never shrinks when there are more distinct values. -/
theorem WideIds.entryBits_mono (h : kind.WideIds g len') (h32 : len' ≤ UInt32.size) (hle : len ≤ len') :
    kind.entryBits g len ≤ kind.entryBits g len' := by
  by_cases hone : len ≤ 1
  · rw [entryBits_of_le_one hone]
    exact Nat.zero_le _
  have hmore : 1 < len := Nat.lt_of_not_le hone
  by_cases hmany : 2 ^ kind.maxBits < len'
  · rw [entryBits_of_lt hmany h32]
    by_cases hmany' : 2 ^ kind.maxBits < len
    · rw [entryBits_of_lt hmany' (Nat.le_trans hle h32)]
    · -- an index is at most as wide as the kind allows, and an id is wider
      have hlocal := (entryBits_local (g := g) hmore (Nat.le_of_not_lt hmany')).2
      exact Nat.le_trans hlocal (Nat.le_of_lt (h hmany))
  · have hfew := Nat.le_of_not_lt hmany
    have hbits : bitLength (len - 1) ≤ bitLength (len' - 1) := bitLength_mono (by omega)
    rw [entryBits_of_le hmore (Nat.le_trans hle hfew), entryBits_of_le (Nat.lt_of_lt_of_le hmore hle) hfew]
    omega

end PaletteKind

/-! ## Sections -/

namespace PalettedSection

variable {kind : PaletteKind} {g : GlobalPalette} {s x y : PalettedSection} {len len' : Nat}

/-- The section has the palette and the width for so many distinct values. -/
structure HasWidth (kind : PaletteKind) (g : GlobalPalette) (len : Nat) (s : PalettedSection) : Prop where
  bits : s.data.bits = kind.entryBits g len
  single : ∀ value, s.palette = .single value → len ≤ 1
  indirect : ∀ values, s.palette = .indirect values → 1 < len ∧ len ≤ 2 ^ kind.maxBits
  global : s.palette = .global → 2 ^ kind.maxBits < len

/-- The width says which palette a section of so many distinct values has. It is zero exactly for one value, from
`low` to `high` exactly for indices into a palette of the section's own, and greater exactly for global ids. -/
structure Banded (low high distinct : Nat) (s : PalettedSection) : Prop where
  zero : s.data.bits = 0 ↔ distinct = 1
  indices : low ≤ s.data.bits ∧ s.data.bits ≤ high ↔ ∃ values, s.palette = .indirect values
  ids : high < s.data.bits ↔ s.palette = .global
  many : high < s.data.bits ↔ 2 ^ high < distinct

/-- The width of a section says its palette exactly if its ids, where it has too many values for indices, are wider than
any index. -/
theorem HasWidth.banded_iff (h : s.HasWidth kind g len) (hpos : 0 < len) (h32 : len ≤ UInt32.size) :
    s.Banded (max kind.minBits 1) kind.maxBits len ↔ kind.WideIds g len := by
  have hbits := h.bits
  have hpow : 1 ≤ 2 ^ kind.maxBits := Nat.one_le_two_pow
  constructor
  · intro hbanded hmany
    have hids := hbanded.many.2 hmany
    rwa [hbits, PaletteKind.entryBits_of_lt hmany h32] at hids
  intro hwide
  cases hp : s.palette with
  | single value =>
    have hone := h.single value hp
    rw [PaletteKind.entryBits_of_le_one hone] at hbits
    refine ⟨by omega, ?_, ?_, by omega⟩
    · simp only [hp, reduceCtorEq, exists_false, iff_false]
      omega
    · simp only [hp, reduceCtorEq, iff_false]
      omega
  | indirect palette =>
    obtain ⟨hmore, hfew⟩ := h.indirect palette hp
    have hlocal := PaletteKind.entryBits_local (g := g) hmore hfew
    rw [← hbits] at hlocal
    refine ⟨by omega, ?_, ?_, by omega⟩
    · simp only [hp, Palette.indirect.injEq, exists_eq', iff_true]
      omega
    · simp only [hp, reduceCtorEq, iff_false]
      omega
  | global =>
    have hmany := h.global hp
    have hids := hwide hmany
    rw [PaletteKind.entryBits_of_lt hmany h32] at hbits
    rw [← hbits] at hids
    refine ⟨by omega, ?_, ?_, by omega⟩
    · simp only [hp, reduceCtorEq, exists_false, iff_false]
      omega
    · simp only [hp, iff_true]
      omega

/-- Of two sections the one with more distinct values is not narrower. -/
theorem HasWidth.mono (hx : x.HasWidth kind g len) (hy : y.HasWidth kind g len') (hwide : kind.WideIds g len')
    (h32 : len' ≤ UInt32.size) (hle : len ≤ len') : x.data.bits ≤ y.data.bits := by
  rw [hx.bits, hy.bits]
  exact hwide.entryBits_mono h32 hle

end PalettedSection

namespace Encoder

variable {e e' : Encoder} {blocks : SectionArray} {g : GlobalPalette} {s t : Session} {encoded : PalettedSection}

/-- The encoder is clean and has room for the section, and the global palette knows its ordinals if they are too many
for a palette of its own. -/
structure Takes (e : Encoder) (g : GlobalPalette) (blocks : SectionArray) : Prop where
  clean : e.IsClean
  fits : e.Fits blocks g
  covers : 256 < blocks.storedPalette.length → g.Covers blocks.storedPalette

theorem Ready.takes {n : UInt32} (he : e.Ready n) (hblocks : blocks.InRegistry n) (hn : 1 < n) :
    e.Takes (.identity n) blocks :=
  ⟨he.clean, he.fits hblocks hn _, fun _ => hblocks.covers hn⟩

theorem hasWidth_of_encode (hclean : e.IsClean) (h : e.encode blocks g s = .ok (encoded, e') t) :
    encoded.HasWidth .blocks g blocks.storedPalette.length := by
  have h32 := blocks.length_storedPalette_le_size
  have hmax : 2 ^ PaletteKind.blocks.maxBits = 256 := rfl
  obtain ⟨e₁, c, -, -, -, ⟨hone, rfl, -⟩ | ⟨hmore, hfew, e₂, hpack, -⟩ | ⟨hmany, e₂, hpack, -⟩⟩ :=
    encode_cases hclean h
  · exact ⟨(PaletteKind.entryBits_of_le_one hone).symm, fun _ _ => hone, nofun, nofun⟩
  · have h8 : bitLength (blocks.storedPalette.length - 1) ≤ 8 := (bitLength_pred_le_iff (by omega)).2 hfew
    obtain ⟨-, hpalette, -, -, hbits, -⟩ := pack_shape (by omega) hpack
    rw [← hmax] at hfew
    refine ⟨hbits.trans (PaletteKind.entryBits_of_le hmore hfew).symm, ?_, fun _ _ => ⟨hmore, hfew⟩, ?_⟩
    · simp [hpalette]
    · simp [hpalette]
  · obtain ⟨-, hpalette, -, -, hbits, -⟩ := pack_shape (Nat.le_trans g.bits_le (by decide)) hpack
    rw [← hmax] at hmany
    refine ⟨hbits.trans (PaletteKind.entryBits_of_lt hmany h32).symm, ?_, ?_, fun _ => hmany⟩
    · simp [hpalette]
    · simp [hpalette]

theorem Takes.encode (h : e.Takes g blocks) (s : Session) :
    ∃ encoded, (∃ e' t, e.encode blocks g s = .ok (encoded, e') t) ∧
      encoded.HasWidth .blocks g blocks.storedPalette.length := by
  obtain ⟨encoded, e', t, hrun⟩ := encode_returns_of_covers h.clean h.fits h.covers s
  exact ⟨encoded, ⟨e', t, hrun⟩, hasWidth_of_encode h.clean hrun⟩

theorem Takes.wideIds (h : e.Takes g blocks) (hsize : g.size ≤ UInt32.size) :
    PaletteKind.blocks.WideIds g blocks.storedPalette.length :=
  PaletteKind.wideIds_of_covers h.covers (nodup_eraseDups _) hsize

end Encoder

namespace BiomeGrid

variable {biomes : Array UInt32} {cells : Array (Option Biome)} {d : Biome} {g : GlobalPalette} {s : PalettedSection}

/-- The grid is one of a section, and the global palette knows its biomes if they are too many for a palette of its
own. -/
structure Fits (g : GlobalPalette) (cells : Array (Option Biome)) (d : Biome) : Prop where
  size : cells.size = sectionBiomes
  covers : 8 < (distinct (resolved d cells)).length → g.Covers (distinct (resolved d cells))

theorem Fits.length (h : Fits g cells d) :
    0 < (distinct (resolved d cells)).length ∧ (distinct (resolved d cells)).length ≤ UInt32.size := by
  have hsize : (resolved d cells).size = sectionBiomes := by rw [resolved, Array.size_map, h.size]
  constructor
  · apply length_distinct_pos
    rw [hsize]
    decide
  · refine Nat.le_trans (length_distinct_le _) ?_
    rw [hsize]
    decide

theorem Fits.wideIds (h : Fits g cells d) (hsize : g.size ≤ UInt32.size) :
    PaletteKind.biomes.WideIds g (distinct (resolved d cells)).length :=
  PaletteKind.wideIds_of_covers h.covers (nodup_eraseDups _) hsize

theorem Encodes.hasWidth (h : Encodes s g biomes) (hpos : 0 < (distinct biomes).length)
    (h32 : (distinct biomes).length ≤ UInt32.size) : s.HasWidth .biomes g (distinct biomes).length := by
  have hmax : 2 ^ PaletteKind.biomes.maxBits = 8 := rfl
  have hmin : PaletteKind.biomes.minBits = 0 := rfl
  by_cases hone : (distinct biomes).length ≤ 1
  · obtain ⟨biome, hbiome⟩ := List.length_eq_one_iff.1 (Nat.le_antisymm hone hpos)
    rw [h.single biome hbiome]
    exact ⟨(PaletteKind.entryBits_of_le_one hone).symm, fun _ _ => hone, nofun, nofun⟩
  have hmore := Nat.lt_of_not_le hone
  by_cases hfew : (distinct biomes).length ≤ 8
  · obtain ⟨hpalette, hwidth⟩ := h.indirect hmore hfew
    have hbits : s.data.bits = bitLength ((distinct biomes).length - 1) := by
      apply Nat.le_antisymm
      · exact (hwidth _).2 ((bitLength_pred_le_iff hpos).1 (Nat.le_refl _))
      · exact (bitLength_pred_le_iff hpos).2 ((hwidth _).1 (Nat.le_refl _))
    rw [← hmax] at hfew
    refine ⟨?_, ?_, fun _ _ => ⟨hmore, hfew⟩, ?_⟩
    · rw [hbits, PaletteKind.entryBits_of_le hmore hfew, hmin, Nat.zero_max]
    · simp [hpalette]
    · simp [hpalette]
  · have hmany := Nat.lt_of_not_le hfew
    obtain ⟨hpalette, hbits⟩ := h.global hmany
    rw [← hmax] at hmany
    refine ⟨hbits.trans (PaletteKind.entryBits_of_lt hmany h32).symm, ?_, ?_, fun _ => hmany⟩
    · simp [hpalette]
    · simp [hpalette]

theorem Fits.encode (h : Fits g cells d) :
    ∃ s, encode cells d g = .ok s ∧ s.HasWidth .biomes g (distinct (resolved d cells)).length := by
  obtain ⟨s, hrun, hencodes⟩ := encode_encodes h.size h.covers
  exact ⟨s, hrun, hencodes.hasWidth h.length.1 h.length.2⟩

end BiomeGrid

/-- Take two sections of blocks that are encoded with the same global palette, each by a clean encoder with room for it.
As long as the palette has no more ids than there are 32-bit numbers, the section with more distinct ordinals to store
is not narrower. The width is zero exactly for one of them, 4 to 8 exactly for indices into a palette of the section's
own, and 9 or more exactly for global ids, which is the case from 257 ordinals on. A larger palette may have narrower
ids: of a section that does not need them the same is true, and of any other exactly if the ids take 9 bits or more.
The same holds for two biome grids, with widths of 1 to 3 for indices, and of 4 or more from nine biomes on. -/
theorem encode_width_monotone (g : GlobalPalette) :
    (∀ (e e' : Encoder) (blocks blocks' : SectionArray), e.Takes g blocks → e'.Takes g blocks' → ∀ s s',
      ∃ x y, (∃ f t, e.encode blocks g s = .ok (x, f) t) ∧ (∃ f t, e'.encode blocks' g s' = .ok (y, f) t) ∧
        (g.size ≤ UInt32.size →
          x.Banded 4 8 blocks.storedPalette.length ∧ y.Banded 4 8 blocks'.storedPalette.length ∧
            (blocks.storedPalette.length ≤ blocks'.storedPalette.length → x.data.bits ≤ y.data.bits)) ∧
        (x.Banded 4 8 blocks.storedPalette.length ↔ (256 < blocks.storedPalette.length → 8 < g.bits)) ∧
        ((256 < blocks'.storedPalette.length → 8 < g.bits) →
          blocks.storedPalette.length ≤ blocks'.storedPalette.length → x.data.bits ≤ y.data.bits)) ∧
    ∀ (cells cells' : Array (Option Biome)) (d d' : Biome), BiomeGrid.Fits g cells d → BiomeGrid.Fits g cells' d' →
      let biomes := BiomeGrid.distinct (BiomeGrid.resolved d cells)
      let biomes' := BiomeGrid.distinct (BiomeGrid.resolved d' cells')
      ∃ x y, BiomeGrid.encode cells d g = .ok x ∧ BiomeGrid.encode cells' d' g = .ok y ∧
        (g.size ≤ UInt32.size →
          x.Banded 1 3 biomes.length ∧ y.Banded 1 3 biomes'.length ∧
            (biomes.length ≤ biomes'.length → x.data.bits ≤ y.data.bits)) ∧
        (x.Banded 1 3 biomes.length ↔ (8 < biomes.length → 3 < g.bits)) ∧
        ((8 < biomes'.length → 3 < g.bits) → biomes.length ≤ biomes'.length → x.data.bits ≤ y.data.bits) := by
  constructor
  · intro e e' blocks blocks' h h' s s'
    obtain ⟨x, hrun, hx⟩ := h.encode s
    obtain ⟨y, hrun', hy⟩ := h'.encode s'
    have hx' := hx.banded_iff blocks.length_storedPalette_pos blocks.length_storedPalette_le_size
    have hy' := hy.banded_iff blocks'.length_storedPalette_pos blocks'.length_storedPalette_le_size
    have hmono := fun hwide => hx.mono hy hwide blocks'.length_storedPalette_le_size
    refine ⟨x, y, hrun, hrun', fun hsize => ?_, hx', hmono⟩
    exact ⟨hx'.2 (h.wideIds hsize), hy'.2 (h'.wideIds hsize), hmono (h'.wideIds hsize)⟩
  · intro cells cells' d d' h h' biomes biomes'
    obtain ⟨x, hrun, hx⟩ := h.encode
    obtain ⟨y, hrun', hy⟩ := h'.encode
    have hx' := hx.banded_iff h.length.1 h.length.2
    have hy' := hy.banded_iff h'.length.1 h'.length.2
    have hmono := fun hwide => hx.mono hy hwide h'.length.2
    refine ⟨x, y, hrun, hrun', fun hsize => ?_, hx', hmono⟩
    exact ⟨hx'.2 (h.wideIds hsize), hy'.2 (h'.wideIds hsize), hmono (h'.wideIds hsize)⟩

/-- Another biome in every cell. -/
def BiomeGrid.manyBiomes : Array (Option Biome) := (Array.range sectionBiomes).map fun i => some (UInt16.ofNat i)

theorem BiomeGrid.length_distinct_manyBiomes : (distinct (resolved 3 manyBiomes)).length = sectionBiomes := by
  decide +kernel

theorem BiomeGrid.fits_manyBiomes : Fits (.identity 300) manyBiomes 3 where
  size := by rw [manyBiomes, Array.size_map, Array.size_range]
  covers _ := by
    have hlt : (distinct (resolved 3 manyBiomes)).all (· < 300) = true := by decide +kernel
    apply GlobalPalette.identity_covers
    intro v hv
    exact of_decide_eq_true (List.all_eq_true.1 hlt v hv)

/-- One value takes no bits and 299 take nine or more, as one biome takes none and 64 take four or more. -/
theorem encode_width_monotone_identity :
    (∃ x y, (∃ f t, (Encoder.create 300).encode (.constant .narrow 7 (by decide)) (.identity 300) {} = .ok (x, f) t) ∧
      (∃ f t, (Encoder.create 300).encode Encoder.manyStates (.identity 300) {} = .ok (y, f) t) ∧
      x.data.bits = 0 ∧ 9 ≤ y.data.bits ∧ y.palette = .global) ∧
    ∃ x y, BiomeGrid.encode (Array.replicate sectionBiomes none) 3 (.identity 300) = .ok x ∧
      BiomeGrid.encode BiomeGrid.manyBiomes 3 (.identity 300) = .ok y ∧
      x.data.bits = 0 ∧ 4 ≤ y.data.bits ∧ y.palette = .global := by
  have hconstant : (SectionArray.constant .narrow 7 (by decide)).InRegistry 300 := by
    refine ⟨rfl, fun i hi => ?_⟩
    simp only [SectionArray.constant, Vector.getElem_replicate]
    decide
  have hready := Encoder.ready_create 300
  obtain ⟨hblocks, hbiomes⟩ := encode_width_monotone (.identity 300)
  constructor
  · obtain ⟨x, y, hrun, hrun', hall, -⟩ := hblocks _ _ _ _ (hready.takes hconstant (by decide))
      (hready.takes Encoder.manyStates_inRegistry (by decide)) {} {}
    obtain ⟨hx, hy, -⟩ := hall (GlobalPalette.size_identity_le 300)
    have hle : (SectionArray.constant .narrow 7 (by decide)).storedPalette.length ≤ 1 :=
      SectionArray.length_storedPalette_of_replicate rfl
    have hpos : 0 < (SectionArray.constant .narrow 7 (by decide)).storedPalette.length :=
      List.length_pos_of_mem (SectionArray.stored_mem_palette _ 0 (by decide))
    have hone : (SectionArray.constant .narrow 7 (by decide)).storedPalette.length = 1 := by omega
    have hids := hy.many.2 Encoder.length_storedPalette_manyStates
    exact ⟨x, y, hrun, hrun', hx.zero.2 hone, hids, hy.ids.1 hids⟩
  · have hone : (BiomeGrid.distinct (BiomeGrid.resolved 3 (Array.replicate sectionBiomes none))).length = 1 := by
      decide +kernel
    have hfits : BiomeGrid.Fits (.identity 300) (Array.replicate sectionBiomes none) 3 := by
      refine ⟨Array.size_replicate, ?_⟩
      intro hmany
      rw [hone] at hmany
      exact absurd hmany (by decide)
    obtain ⟨x, y, hrun, hrun', hall, -⟩ := hbiomes _ _ 3 3 hfits BiomeGrid.fits_manyBiomes
    obtain ⟨hx, hy, -⟩ := hall (GlobalPalette.size_identity_le 300)
    have hids := hy.many.2 (by rw [BiomeGrid.length_distinct_manyBiomes]; decide)
    exact ⟨x, y, hrun, hrun', hx.zero.2 hone, hids, hy.ids.1 hids⟩

/-- Two ordinals in turn. -/
def SectionArray.twoStates : SectionArray where
  width := .narrow
  cells := Vector.ofFn fun i => if i.val % 2 = 0 then 7 else 8
  fits i hi := by
    rw [Vector.getElem_ofFn]
    split <;> decide

theorem SectionArray.getElem_twoStates {i : Nat} (hi : i < sectionBlocks) :
    twoStates.cells[i].stored = if i % 2 = 0 then 7 else 8 := by
  rw [twoStates, Vector.getElem_ofFn]
  dsimp only
  split <;> rfl

theorem SectionArray.length_storedPalette_twoStates : twoStates.storedPalette.length = 2 := by
  have hsubset : twoStates.storedPalette ⊆ [7, 8] := by
    intro v hv
    obtain ⟨i, hi, rfl⟩ := mem_storedPalette.1 hv
    rw [getElem_twoStates hi]
    split <;> decide
  have hmem : ([7, 8] : List UInt32) ⊆ twoStates.storedPalette := by
    intro v hv
    rcases List.mem_pair.1 hv with rfl | rfl
    · exact mem_storedPalette.2 ⟨0, by decide, getElem_twoStates (by decide)⟩
    · exact mem_storedPalette.2 ⟨1, by decide, getElem_twoStates (by decide)⟩
  have hle := ((nodup_eraseDups _).subperm hsubset).length_le
  have hge := ((show ([7, 8] : List UInt32).Nodup by decide).subperm hmem).length_le
  exact Nat.le_antisymm hle hge

/-- A palette of `2 ^ 32 + 1` ids has an ordinal for each of them. With it two ordinals take four bits and 299 take
none, and two biomes take one bit and 64 take none. -/
theorem encode_width_wrapping :
    (∀ ordinals, GlobalPalette.wrapping.Covers ordinals) ∧
    (∃ x y, (∃ f t, (Encoder.create 300).encode .twoStates .wrapping {} = .ok (x, f) t) ∧
      (∃ f t, (Encoder.create 300).encode Encoder.manyStates .wrapping {} = .ok (y, f) t) ∧
      SectionArray.twoStates.storedPalette.length ≤ Encoder.manyStates.storedPalette.length ∧
      x.data.bits = 4 ∧ y.data.bits = 0 ∧ y.palette = .global) ∧
    ∃ x y, BiomeGrid.encode (Array.replicate 63 none ++ #[some 5]) 3 .wrapping = .ok x ∧
      BiomeGrid.encode BiomeGrid.manyBiomes 3 .wrapping = .ok y ∧
      x.data.bits = 1 ∧ y.data.bits = 0 ∧ y.palette = .global := by
  have hcovers := GlobalPalette.covers_wrapping
  have hready := Encoder.ready_create 300
  refine ⟨hcovers, ?_, ?_⟩
  · have hregistry : SectionArray.twoStates.InRegistry 300 := by
      refine ⟨rfl, fun i hi => ?_⟩
      rw [SectionArray.twoStates, Vector.getElem_ofFn]
      split <;> decide
    have htwo := SectionArray.length_storedPalette_twoStates
    have hmany := Encoder.length_storedPalette_manyStates
    have htakes : (Encoder.create 300).Takes .wrapping .twoStates :=
      ⟨hready.clean, hready.fits hregistry (by decide) _, fun _ => hcovers _⟩
    obtain ⟨x, hrun, hx⟩ := htakes.encode {}
    obtain ⟨y, f, t, hrun', hglobal, hzero, -⟩ := Encoder.encode_wrapping hready.clean
      (hready.fits Encoder.manyStates_inRegistry (by decide) .wrapping) hmany {}
    refine ⟨x, y, hrun, ⟨f, t, hrun'⟩, by omega, ?_, hzero, hglobal⟩
    rw [hx.bits, htwo]
    decide
  · have hsize : BiomeGrid.Fits .wrapping (Array.replicate 63 none ++ #[some 5]) 3 :=
      ⟨by simp, fun _ => hcovers _⟩
    have htwo : (BiomeGrid.distinct (BiomeGrid.resolved 3 (Array.replicate 63 none ++ #[some 5]))).length = 2 := by
      decide +kernel
    obtain ⟨x, hrun, hx⟩ := hsize.encode
    obtain ⟨y, hrun', hy⟩ := BiomeGrid.encode_encodes (g := .wrapping) BiomeGrid.fits_manyBiomes.size fun _ => hcovers _
    obtain ⟨hglobal, hbits⟩ := hy.global (by rw [BiomeGrid.length_distinct_manyBiomes]; decide)
    refine ⟨x, y, hrun, hrun', ?_, hbits.trans GlobalPalette.bits_wrapping, hglobal⟩
    rw [hx.bits, htwo]
    decide

end VoxelStore
