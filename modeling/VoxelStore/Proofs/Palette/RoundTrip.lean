import VoxelStore.Proofs.Palette.GlobalIds
/-!
# Sections come back as they went in

What a clean encoder makes of a section decodes to the blocks of it, entry by entry and as a whole, with air in place of
the placeholder, unless the section is stored in ids that are cut (`encode_roundTrip`). The parts of the section make it
again in any case.
-/

namespace VoxelStore

namespace Encoder

variable {e e' : Encoder} {blocks out : SectionArray} {g : GlobalPalette} {s t : Session} {encoded : PalettedSection}

/-! ## What was encoded -/

/-- The parts of a section that was encoded make it again. -/
theorem ofParts_of_encode (hclean : e.IsClean) (h : e.encode blocks g s = .ok (encoded, e') t) :
    encoded.kind = .blocks ∧ encoded.data.len = sectionBlocks ∧
      PalettedSection.ofParts encoded.kind encoded.palette encoded.data.bits encoded.data.words encoded.nonAir =
        .ok encoded := by
  have hparts : encoded.kind = .blocks → encoded.data.len = sectionBlocks → encoded.data.bits ≤ 32 →
      encoded.data.words.size = Packed.wordsNeeded sectionBlocks encoded.data.bits →
      PalettedSection.ofParts encoded.kind encoded.palette encoded.data.bits encoded.data.words encoded.nonAir =
        .ok encoded := by
    intro hkind hlen h32 hwords
    have hentries : encoded.kind.entries = encoded.data.len := by rw [hkind, hlen]; rfl
    rw [PalettedSection.ofParts_eq_ok_iff, hentries, hlen]
    exact ⟨⟨h32, hwords⟩, by rw [← hlen]⟩
  obtain ⟨e₁, c, -, -, -, ⟨-, rfl, -⟩ | ⟨-, hfew, e₂, hpack, -⟩ | ⟨-, e₂, hpack, -⟩⟩ := encode_cases hclean h
  · exact ⟨rfl, rfl, hparts rfl rfl (Nat.zero_le _) (Packed.wordsNeeded_zero _).symm⟩
  · have h8 : bitLength (blocks.storedPalette.length - 1) ≤ 8 := bitLength_le_iff.2 (by omega)
    obtain ⟨hkind, -, -, hlen, hbits, htight, -⟩ := pack_shape (by omega) hpack
    exact ⟨hkind, hlen, hparts hkind hlen (by omega) (hlen ▸ htight.size)⟩
  · obtain ⟨hkind, -, -, hlen, hbits, htight, -⟩ := pack_shape (Nat.le_trans g.bits_le (by decide)) hpack
    exact ⟨hkind, hlen, hparts hkind hlen (hbits ▸ g.bits_le) (hlen ▸ htight.size)⟩

/-- An entry reads its ordinal unless this is stored by an id that is cut. -/
theorem get_iff_of_encode (hclean : e.IsClean) (h : e.encode blocks g s = .ok (encoded, e') t)
    (hcovers : 256 < blocks.storedPalette.length → g.Covers blocks.storedPalette) {i : Nat} (hi : i < sectionBlocks) :
    encoded.get g i = pure blocks.cells[i].stored ↔
      (256 < blocks.storedPalette.length → g.IdFits blocks.cells[i].stored) := by
  by_cases hmany : 256 < blocks.storedPalette.length
  · rw [get_global_iff hclean hmany h hi]
    have hknown := hcovers hmany _ (blocks.stored_mem_palette i hi)
    exact ⟨fun hread _ => hread.2, fun hfits => ⟨hknown, hfits hmany⟩⟩
  · obtain ⟨hfits, -⟩ := needs_of_encode hclean h
    obtain ⟨encoded', e₁, t₁, hrun, hstores, -⟩ := encode_stores hclean hfits (fun hlt => absurd hlt hmany) s
    cases h.symm.trans hrun
    rw [hstores.get hi, blocks.getElem_storedCells]
    exact iff_of_true rfl fun hlt => absurd hlt hmany

/-- The section decodes to its blocks if none of their ids is cut. -/
theorem decode_iff_of_encode (hclean : e.IsClean) (h : e.encode blocks g s = .ok (encoded, e') t)
    (hcovers : 256 < blocks.storedPalette.length → g.Covers blocks.storedPalette) :
    encoded.decode g = pure blocks.storedCells.toArray ↔
      (256 < blocks.storedPalette.length → ∀ v ∈ blocks.storedPalette, g.IdFits v) := by
  obtain ⟨-, hlen, -⟩ := ofParts_of_encode hclean h
  rw [PalettedSection.decode_eq_pure_iff, hlen]
  constructor
  · rintro ⟨-, hget⟩ hmany v hv
    obtain ⟨i, hi, rfl⟩ := SectionArray.mem_storedPalette.1 hv
    have hread := hget i (by rwa [Vector.size_toArray])
    rw [Vector.getElem_toArray, blocks.getElem_storedCells] at hread
    exact (get_iff_of_encode hclean h hcovers hi).1 hread hmany
  · intro hfits
    refine ⟨Vector.size_toArray _, fun i hi => ?_⟩
    rw [Vector.size_toArray] at hi
    rw [Vector.getElem_toArray, blocks.getElem_storedCells]
    exact (get_iff_of_encode hclean h hcovers hi).2 fun hmany => hfits hmany _ (blocks.stored_mem_palette i hi)

/-- Decoding into an array of the width of the blocks comes to the same. -/
theorem decodeInto_iff_of_encode (hclean : e.IsClean) (h : e.encode blocks g s = .ok (encoded, e') t)
    (hout : out.width = blocks.width) :
    (∃ filled, encoded.decodeInto g out = .ok (.ok (), filled) ∧ filled.width = out.width ∧
        filled.cells = blocks.storedCells) ↔
      encoded.decode g = pure blocks.storedCells.toArray := by
  obtain ⟨hkind, hlen, -⟩ := ofParts_of_encode hclean h
  refine PalettedSection.decodeInto_iff hkind hlen fun j hj => ?_
  rw [hout, blocks.getElem_storedCells, BlockState.stored]
  split
  · -- air takes the place of the placeholder, and fits either width
    cases blocks.width <;> decide
  · exact blocks.fits j hj

/-! ## The round trip -/

/-- A clean encoder with room for a section encodes it, if the global palette knows the ordinals of sections with more
than 256 of them. The parts of the section make it again. As long as the palette has no more ids than there are 32-bit
numbers, the section decodes to the blocks, with air in place of the placeholder: all at once, entry by entry, and into
an array of the width of the blocks. Of a larger palette the ids are cut to its width, and of a section that uses them
an entry comes back if and only if its id has room in that; all come back at once if all of their ids have. -/
theorem encode_roundTrip (hclean : e.IsClean) (hfits : e.Fits blocks g)
    (hcovers : 256 < blocks.storedPalette.length → g.Covers blocks.storedPalette) (s : Session) :
    ∃ encoded e' t, e.encode blocks g s = .ok (encoded, e') t ∧
      PalettedSection.ofParts encoded.kind encoded.palette encoded.data.bits encoded.data.words
        encoded.nonAir = .ok encoded ∧
      (g.size ≤ UInt32.size →
        encoded.decode g = pure (blocks.cells.toArray.map BlockState.stored) ∧
        (∀ i (h : i < sectionBlocks), encoded.get g i = pure blocks.cells[i].stored) ∧
        ∀ out : SectionArray, out.width = blocks.width → ∃ filled,
          encoded.decodeInto g out = .ok (.ok (), filled) ∧ filled.width = out.width ∧
            filled.cells = blocks.cells.map BlockState.stored) ∧
      (∀ i (h : i < sectionBlocks), encoded.get g i = pure blocks.cells[i].stored ↔
        (256 < blocks.storedPalette.length → g.IdFits blocks.cells[i].stored)) ∧
      (encoded.decode g = pure (blocks.cells.toArray.map BlockState.stored) ↔
        (256 < blocks.storedPalette.length → ∀ v ∈ blocks.storedPalette, g.IdFits v)) ∧
      ∀ out : SectionArray, out.width = blocks.width →
        ((∃ filled, encoded.decodeInto g out = .ok (.ok (), filled) ∧ filled.width = out.width ∧
            filled.cells = blocks.cells.map BlockState.stored) ↔
          (256 < blocks.storedPalette.length → ∀ v ∈ blocks.storedPalette, g.IdFits v)) := by
  obtain ⟨encoded, e', t, hrun⟩ := encode_returns_of_covers hclean hfits hcovers s
  obtain ⟨-, -, hparts⟩ := ofParts_of_encode hclean hrun
  have hcells : blocks.storedCells.toArray = blocks.cells.toArray.map BlockState.stored := by
    rw [SectionArray.storedCells, Vector.toArray_map]
  have hget := fun i (hi : i < sectionBlocks) => get_iff_of_encode hclean hrun hcovers hi
  have hdecode := decode_iff_of_encode hclean hrun hcovers
  have hinto := fun (out : SectionArray) (hout : out.width = blocks.width) =>
    (decodeInto_iff_of_encode hclean hrun hout).trans hdecode
  have hall : g.size ≤ UInt32.size → 256 < blocks.storedPalette.length → ∀ v ∈ blocks.storedPalette, g.IdFits v :=
    fun hsize hmany v hv => GlobalPalette.idFits_of_size hsize (hcovers hmany v hv)
  rw [hcells] at hdecode
  refine ⟨encoded, e', t, hrun, hparts, fun hsize => ⟨hdecode.2 (hall hsize), fun i hi => ?_, fun out hout => ?_⟩, hget,
    hdecode, hinto⟩
  · exact (hget i hi).2 fun hmany => hall hsize hmany _ (blocks.stored_mem_palette i hi)
  · exact (hinto out hout).2 (hall hsize)

/-- The placeholder comes back as air, and the entry before the first repetition as itself. -/
theorem encode_roundTrip_manyStates :
    ∃ encoded e' t, (create 300).encode manyStates (.identity 300) {} = .ok (encoded, e') t ∧
      encoded.decode (.identity 300) = pure (manyStates.cells.toArray.map BlockState.stored) ∧
      encoded.get (.identity 300) 0 = pure BlockState.air ∧ encoded.get (.identity 300) 299 = pure 299 ∧
      encoded.get (.identity 300) 300 = pure BlockState.air := by
  have hcovers : (GlobalPalette.identity 300).Covers manyStates.storedPalette :=
    manyStates_inRegistry.covers (by decide)
  have hready := ready_create 300
  have hfits : (create 300).Fits manyStates (.identity 300) :=
    hready.fits manyStates_inRegistry (by decide) _
  obtain ⟨encoded, e', t, hrun, -, hall, -⟩ := encode_roundTrip hready.clean hfits (fun _ => hcovers) {}
  obtain ⟨hdecode, hget, -⟩ := hall (GlobalPalette.size_identity_le 300)
  refine ⟨encoded, e', t, hrun, hdecode, ?_, ?_, ?_⟩
  · rw [hget 0 (by decide), manyStates, Vector.getElem_ofFn]
    rfl
  · rw [hget 299 (by decide), manyStates, Vector.getElem_ofFn]
    rfl
  · rw [hget 300 (by decide), manyStates, Vector.getElem_ofFn]
    rfl

/-- A palette of `2 ^ 32 + 1` ids has an ordinal for each of them. With it the entries of the same section have no bits,
and it does not decode to its blocks. -/
theorem encode_roundTrip_wrapping :
    (create 300).IsClean ∧ (create 300).Fits manyStates .wrapping ∧
      GlobalPalette.wrapping.Covers manyStates.storedPalette ∧
      ∃ encoded e' t, (create 300).encode manyStates .wrapping {} = .ok (encoded, e') t ∧ encoded.data.bits = 0 ∧
        manyStates.cells[299].stored = 299 ∧ encoded.get .wrapping 299 = pure 0 ∧
        encoded.decode .wrapping ≠ pure (manyStates.cells.toArray.map BlockState.stored) := by
  have hready := ready_create 300
  have hfits : (create 300).Fits manyStates .wrapping := hready.fits manyStates_inRegistry (by decide) .wrapping
  have hlast := stored_manyStates (i := 299) (by decide) (by decide) (by decide)
  obtain ⟨encoded, e', t, hrun, -, hbits, hget⟩ :=
    encode_wrapping hready.clean hfits length_storedPalette_manyStates {}
  refine ⟨hready.clean, hfits, GlobalPalette.covers_wrapping _, encoded, e', t, hrun, hbits, hlast,
    hget 299 (by decide), fun hdecode => ?_⟩
  obtain ⟨hsize, hread⟩ := PalettedSection.decode_eq_pure_iff.1 hdecode
  have hread := hread 299 (by simp; decide)
  rw [Array.getElem_map, Vector.getElem_toArray, hlast, hget 299 (by decide), Checked.pure_inj] at hread
  exact absurd hread (by decide)

end Encoder

end VoxelStore
