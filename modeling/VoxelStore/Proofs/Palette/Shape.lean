import VoxelStore.Proofs.Packed.Padding
import VoxelStore.Proofs.Palette.Encoded
import VoxelStore.Proofs.Palette.Ready
/-!
# The exact form of an encoded section

Many sections stand for the same blocks: their palettes may be in any order and have values that no block
uses, and the bits between and behind their entries are never read. `encode_shape` says which of them the
encoder makes. The palette is the list of the distinct ordinals in the order of first sight, and an entry is
a place in this list, or a global id where the list is too long. No other bit is set.
-/

namespace VoxelStore

namespace Encoder

variable {e e' : Encoder} {blocks : SectionArray} {g : GlobalPalette} {s t : Session}
variable {encoded : PalettedSection}

/-! ## The parts of an encoding -/

/-- Whatever the entries are, they are packed in the order of the blocks, each cut to its width. -/
theorem pack_shape {bits : Nat} {palette : Palette} {entry : BlockState → Except Fault UInt32} {nonAir : UInt16}
    (h64 : bits ≤ 64) (h : e.pack bits palette entry blocks nonAir = .ok (encoded, e')) :
    encoded.kind = .blocks ∧ encoded.palette = palette ∧ encoded.nonAir = nonAir ∧
      encoded.data.len = sectionBlocks ∧ encoded.data.bits = bits ∧ encoded.data.Tight ∧
      ∀ i (hi : i < sectionBlocks), ∃ v x, entry blocks.cells[i].stored = .ok v ∧
        encoded.data.get i = .ok (some x) ∧ x.toNat = v.toNat % 2 ^ bits := by
  obtain ⟨entries, used, words, hfill, hpack, rfl, -⟩ := pack_eq_ok h
  obtain ⟨hextract, hword⟩ := Packed.extract_of_packInto hpack
  have hlen : entries.toArray.size = sectionBlocks := Vector.size_toArray _
  rw [hlen] at hextract hword
  refine ⟨rfl, rfl, rfl, rfl, rfl, Packed.tight_of_packed h64 hlen hextract hword, fun i hi => ?_⟩
  obtain ⟨x, hget, hx⟩ := Packed.get_of_packed (a := ⟨sectionBlocks, bits, words.extract 0 used⟩) hlen h64 hword
    (hlen.symm ▸ hi)
  exact ⟨entries[i], x, fill_finRange hfill hi, hget, hx⟩

/-- The index of an ordinal is its place in the list of what was seen. A width with room for all places does
not cut it. -/
theorem Noted.localIndex_mod {seen : List BlockState} {c : Census} {v : BlockState} {x : UInt32} {bits : Nat}
    (h : e.Noted seen c) (hv : v ∈ seen) (hsize : v.toNat < e.indexOf.size) (hroom : seen.eraseDups.length ≤ 2 ^ bits)
    (h32 : bits ≤ 32) (hx : e.localIndex v = .ok x) : x.toNat % 2 ^ bits = seen.eraseDups.idxOf v := by
  have hlt : seen.eraseDups.idxOf v < seen.eraseDups.length :=
    List.idxOf_lt_length_of_mem (List.mem_eraseDups.2 hv)
  cases hx.symm.trans (h.localIndex_eq hv hsize)
  have hmax : 2 ^ bits ≤ UInt32.size := Nat.pow_le_pow_right (by decide) h32
  have hplace := Nat.lt_of_lt_of_le hlt hroom
  rw [UInt32.toNat_ofNat_of_lt' (Nat.lt_of_lt_of_le hplace hmax), Nat.mod_eq_of_lt hplace]

/-- The number of blocks outside of the air family does not wrap. -/
theorem toNat_nonAir (blocks : SectionArray) :
    blocks.nonAir.toNat = blocks.cells.countP fun v => v ∉ [.reserved, .air, .caveAir, .voidAir] := by
  have hfamily : (fun v : BlockState => !v.isAir) =
      fun v => decide (v ∉ [BlockState.reserved, .air, .caveAir, .voidAir]) := by
    funext v
    rw [Bool.eq_iff_iff]
    simp [BlockState.isAir, and_assoc]
  have hle : (blocks.cells.countP fun v => !v.isAir) ≤ sectionBlocks := Vector.countP_le_size
  rw [SectionArray.nonAir, UInt16.toNat_ofNat_of_lt' (Nat.lt_of_le_of_lt hle (by decide)), hfamily]

/-! ## The form -/

/-- A section that a clean encoder makes is determined by the distinct ordinals that are stored, listed in
the order of first sight. One ordinal is the palette by itself, and needs no words. Up to 256 of them are the
palette as they are listed: an entry is the place of its ordinal, in the least width from four bits on that
has room for all places. More of them are stored as global ids, cut to the width of the global palette. In
each case there are as many words as the entries need, no bit beside the entries is set, and the blocks
outside of the air family are counted. -/
theorem encode_shape (hclean : e.IsClean) (h : e.encode blocks g s = .ok (encoded, e') t) :
    (blocks.storedPalette.length ≤ 1 → ∃ v, blocks.storedPalette = [v] ∧ encoded.palette = .single v ∧
        encoded.data.bits = 0 ∧ encoded.data.words = #[]) ∧
      (1 < blocks.storedPalette.length → blocks.storedPalette.length ≤ 256 →
        encoded.palette = .indirect blocks.storedPalette.toArray ∧
        (∃ b, IsLeast {b | blocks.storedPalette.length ≤ 2 ^ b} b ∧ encoded.data.bits = max 4 b) ∧
        ∀ i (hi : i < sectionBlocks), ∃ x, encoded.data.get i = .ok (some x) ∧
          x.toNat = blocks.storedPalette.idxOf blocks.cells[i].stored) ∧
      (256 < blocks.storedPalette.length →
        encoded.palette = .global ∧ encoded.data.bits = g.bits ∧
        ∀ i (hi : i < sectionBlocks), ∃ id x, g.idOf blocks.cells[i].stored = .ok id ∧
          encoded.data.get i = .ok (some x) ∧ x.toNat = id.toNat % 2 ^ g.bits) ∧
      encoded.kind = .blocks ∧ encoded.data.len = sectionBlocks ∧ encoded.data.Tight ∧
      encoded.nonAir.toNat = blocks.cells.countP fun v => v ∉ [.reserved, .air, .caveAir, .voidAir] := by
  obtain ⟨e₁, c, hstates, hnoted, hlarge, ⟨hone, rfl, -⟩ | ⟨hmore, hfew, e₂, hpack, -⟩ | ⟨hmany, e₂, hpack, -⟩⟩ :=
    encode_cases hclean h
  · refine ⟨fun _ => ?_, fun _ => by omega, fun _ => by omega, rfl, rfl, Packed.tight_zero _,
      toNat_nonAir blocks⟩
    have hfirst := blocks.stored_mem_palette 0 (by decide)
    obtain ⟨v, hv⟩ := List.length_eq_one_iff.1 (Nat.le_antisymm hone (List.length_pos_of_mem hfirst))
    rw [hv, List.mem_singleton] at hfirst
    exact ⟨v, hv, congrArg Palette.single hfirst, rfl, rfl⟩
  · have hleast := isLeast_bitLength blocks.storedPalette.length
    have h8 : bitLength (blocks.storedPalette.length - 1) ≤ 8 := (bitLength_pred_le_iff (by omega)).2 hfew
    have hroom : blocks.storedPalette.length ≤ 2 ^ max 4 (bitLength (blocks.storedPalette.length - 1)) :=
      (bitLength_pred_le_iff (by omega)).1 (Nat.le_max_right ..)
    obtain ⟨hkind, hpalette, hcount, hlen, hbits, htight, hentries⟩ := pack_shape (by omega) hpack
    refine ⟨fun _ => by omega, fun _ _ => ⟨?_, ⟨_, hleast, hbits⟩, fun i hi => ?_⟩, fun _ => by omega, hkind,
      hlen, htight, by rw [hcount, toNat_nonAir]⟩
    · exact hpalette
    · obtain ⟨v, x, hv, hget, hx⟩ := hentries i hi
      have hmem := blocks.stored_mem_palette i hi
      have hsize := hlarge.indexOf.symm ▸ hstates _ hmem
      exact ⟨x, hget, hx.trans (hnoted.localIndex_mod (List.mem_eraseDups.1 hmem) hsize hroom (by omega) hv)⟩
  · obtain ⟨hkind, hpalette, hcount, hlen, hbits, htight, hentries⟩ :=
      pack_shape (Nat.le_trans g.bits_le (by decide)) hpack
    refine ⟨fun _ => by omega, fun _ _ => by omega, fun _ => ⟨hpalette, hbits, hentries⟩, hkind, hlen, htight,
      by rw [hcount, toNat_nonAir]⟩

theorem getElem_manyStates {i : Nat} (h : i < sectionBlocks) (hi : i < 300) :
    manyStates.cells[i] = UInt32.ofNat i := by
  simp only [manyStates, Vector.getElem_ofFn, Nat.mod_eq_of_lt hi]

theorem toNat_ofNat_of_lt_300 {i : Nat} (hi : i < 300) : (UInt32.ofNat i).toNat = i :=
  UInt32.toNat_ofNat_of_lt' (Nat.lt_trans hi (by decide))

theorem stored_manyStates {i : Nat} (h : i < sectionBlocks) (hpos : 0 < i) (hi : i < 300) :
    manyStates.cells[i].stored = UInt32.ofNat i := by
  rw [getElem_manyStates h hi, BlockState.stored_of_ne]
  intro hzero
  have hnat := congrArg UInt32.toNat hzero
  rw [toNat_ofNat_of_lt_300 hi] at hnat
  exact Nat.ne_of_gt hpos hnat

/-- All ordinals but the placeholder are in the palette. -/
theorem length_storedPalette_manyStates : 256 < manyStates.storedPalette.length := by
  have hnodup : ((List.range 299).map fun k => UInt32.ofNat (k + 1)).Nodup := by
    refine List.Nodup.map_on (fun j hj k hk hjk => ?_) List.nodup_range
    have heq := congrArg UInt32.toNat hjk
    rw [toNat_ofNat_of_lt_300 (Nat.succ_lt_succ (List.mem_range.1 hj)),
      toNat_ofNat_of_lt_300 (Nat.succ_lt_succ (List.mem_range.1 hk))] at heq
    exact Nat.succ.inj heq
  have hsubset : ((List.range 299).map fun k => UInt32.ofNat (k + 1)) ⊆ manyStates.storedPalette := by
    intro v hv
    obtain ⟨k, hk, rfl⟩ := List.mem_map.1 hv
    have hk300 : k + 1 < 300 := Nat.succ_lt_succ (List.mem_range.1 hk)
    have hmem := manyStates.stored_mem_palette (k + 1) (Nat.lt_trans hk300 (by decide))
    rwa [stored_manyStates _ (Nat.succ_pos k) hk300] at hmem
  have hle := (hnodup.subperm hsubset).length_le
  rw [List.length_map, List.length_range] at hle
  omega

/-- With 299 ordinals to store, a section gets the ids of the global palette, in nine bits each and seven to a
word. The first entry is the id of air, which is stored for the placeholder. -/
theorem encode_shape_manyStates :
    ∃ encoded e' t, (create 300).encode manyStates (.identity 300) {} = .ok (encoded, e') t ∧
      encoded.palette = .global ∧ encoded.data.bits = 9 ∧ encoded.data.words.size = 586 ∧
      encoded.data.get 0 = .ok (some 1) ∧ encoded.data.get 299 = .ok (some 299) := by
  have hcovers : (GlobalPalette.identity 300).Covers manyStates.storedPalette :=
    GlobalPalette.identity_covers fun v hv => manyStates_inRegistry.lt_of_mem (by decide) hv
  have hready := ready_create 300
  obtain ⟨encoded, e', t, hrun, -⟩ := encode_stores hready.clean
    (hready.fits manyStates_inRegistry (by decide) (.identity 300))
    (fun _ => hcovers.returns (GlobalPalette.size_identity_le 300)) {}
  obtain ⟨-, -, hglobal, -, hlen, htight, -⟩ := encode_shape hready.clean hrun
  obtain ⟨hpalette, hbits, hentries⟩ := hglobal length_storedPalette_manyStates
  have hnine : (GlobalPalette.identity 300).bits = 9 := by decide +kernel
  have hentry : ∀ i (hi : i < sectionBlocks),
      encoded.data.get i = .ok (some manyStates.cells[i].stored.toUInt64) := by
    intro i hi
    have hlt := BlockState.stored_lt (manyStates_inRegistry.cells i hi) (by decide)
    have hcut := Nat.lt_trans (UInt32.lt_iff_toNat_lt.1 hlt) (show (300 : UInt32).toNat < 2 ^ 9 by decide)
    obtain ⟨id, x, hid, hget, hx⟩ := hentries i hi
    rw [GlobalPalette.idOf_identity hlt, Except.ok.injEq] at hid
    rw [← hid, hnine, Nat.mod_eq_of_lt hcut] at hx
    rw [hget, UInt64.toNat_inj.1 (hx.trans (UInt32.toNat_toUInt64 _).symm)]
  refine ⟨encoded, e', t, hrun, hpalette, hbits.trans hnine, ?_, ?_, ?_⟩
  · rw [htight.size, hlen, hbits, hnine]
    rfl
  · rw [hentry 0 (by decide), getElem_manyStates (by decide) (by decide)]
    rfl
  · rw [hentry 299 (by decide), getElem_manyStates (by decide) (by decide)]
    rfl

end Encoder

end VoxelStore
