import VoxelStore.Proofs.Palette.Alike
import VoxelStore.Proofs.Palette.RoundTrip
/-!
# Encoding an edit on top of a section

Before an edit is encoded, its placeholders are replaced by the blocks of the section that the world has. `Resolved`
says what this does to any list of cells. No placeholder is left over, so that the encoder stores the cells as they
are, and merging once more has nothing to do: unless ids are cut, the edit in memory and the section that is stored
agree everywhere.
-/

namespace VoxelStore

namespace Encoder

variable {e e' f : Encoder} {blocks base out : SectionArray} {g : GlobalPalette} {s t : Session}
variable {encoded : PalettedSection} {l : List (Fin sectionBlocks)} {n : UInt32}

/-! ## Cells -/

theorem merged_of_ne {edit base : BlockState} (h : edit ≠ .reserved) : merged edit base = edit := if_neg h

theorem merged_ne_reserved (edit base : BlockState) : merged edit base ≠ .reserved := by
  unfold merged
  split
  · exact base.stored_ne_reserved
  · assumption

/-- The edit comes first, then the base, then air. -/
theorem merged_eq (edit base : BlockState) :
    merged edit base = if edit ≠ .reserved then edit else if base ≠ .reserved then base else .air := by
  unfold merged BlockState.stored
  by_cases hedit : edit = .reserved <;> by_cases hbase : base = .reserved <;> simp [hedit, hbase]

/-- What is merged fits where both the edit and the base do. -/
theorem holds_merged {w : ArrayWidth} {edit base : BlockState} (hedit : w.Holds edit) (hbase : w.Holds base) :
    w.Holds (merged edit base) := by
  have hair : w.Holds .air := by cases w <;> decide
  rw [merged_eq]
  split
  · exact hedit
  · split
    · exact hbase
    · exact hair

/-! ## Arrays -/

/-- The given cells are merged, and the others are as before. -/
structure Resolved (base : SectionArray) (l : List (Fin sectionBlocks)) (blocks out : SectionArray) : Prop where
  width : out.width = blocks.width
  cells : ∀ i (hi : i < sectionBlocks),
    out.cells[i] = if ⟨i, hi⟩ ∈ l then merged blocks.cells[i] base.cells[i] else blocks.cells[i]

theorem resolve_eq_ok (h : resolve base l blocks = .ok out) : Resolved base l blocks out := by
  induction l generalizing blocks with
  | nil =>
    cases h
    exact ⟨rfl, fun i hi => by simp⟩
  | cons k l ih =>
    obtain ⟨k, hlt⟩ := k
    rw [resolve_cons] at h
    by_cases hk : blocks.cells[k] = .reserved
    · rw [if_pos hk] at h
      obtain ⟨written, hset, h⟩ := except_bind_eq_ok.1 h
      obtain ⟨hwidth, hwritten⟩ := SectionArray.set_eq_ok hset
      obtain ⟨hw, hcells⟩ := ih h
      refine ⟨hw.trans hwidth, fun i hi => ?_⟩
      rw [hcells]
      -- a cell that was written once stays, as it is no placeholder any more
      by_cases hik : i = k
      · subst hik
        simp [hwritten, merged_of_ne (merged_ne_reserved _ _)]
      · simp [hwritten, hik, Ne.symm hik]
    · rw [if_neg hk] at h
      obtain ⟨hw, hcells⟩ := ih h
      refine ⟨hw, fun i hi => ?_⟩
      rw [hcells]
      by_cases hik : i = k
      · subst hik
        simp [merged_of_ne hk]
      · simp [hik]

/-- Cells that fit the width can be written. -/
theorem resolve_of_holds (hfit : ∀ i (h : i < sectionBlocks), blocks.width.Holds base.cells[i])
    (l : List (Fin sectionBlocks)) : ∃ out, resolve base l blocks = .ok out := by
  induction l generalizing blocks with
  | nil => exact ⟨blocks, rfl⟩
  | cons k l ih =>
    obtain ⟨k, hlt⟩ := k
    rw [resolve_cons]
    by_cases hk : blocks.cells[k] = .reserved
    · have hmerged := holds_merged (blocks.fits k hlt) (hfit k hlt)
      obtain ⟨written, hset⟩ := SectionArray.set_of_holds hmerged hlt
      obtain ⟨hwidth, -⟩ := SectionArray.set_eq_ok hset
      rw [← hwidth] at hfit
      obtain ⟨out, hout⟩ := ih hfit
      rw [if_pos hk]
      exact ⟨out, except_bind_eq_ok.2 ⟨written, hset, hout⟩⟩
    · rw [if_neg hk]
      exact ih hfit

/-- Where there is no placeholder, nothing is written, whatever the base is. -/
theorem resolve_self (h : ∀ i (hi : i < sectionBlocks), blocks.cells[i] ≠ .reserved) :
    resolve base l blocks = .ok blocks := by
  induction l with
  | nil => rfl
  | cons k l ih =>
    obtain ⟨k, hlt⟩ := k
    rw [resolve_cons, if_neg (h k hlt), ih]

theorem Resolved.cell (h : Resolved base (List.finRange sectionBlocks) blocks out) {i : Nat}
    (hi : i < sectionBlocks) : out.cells[i] = merged blocks.cells[i] base.cells[i] := by
  rw [h.cells i hi, if_pos (List.mem_finRange _)]

theorem Resolved.ne_reserved (h : Resolved base (List.finRange sectionBlocks) blocks out) {i : Nat}
    (hi : i < sectionBlocks) : out.cells[i] ≠ .reserved := by
  rw [h.cell hi]
  exact merged_ne_reserved _ _

/-- Merging stays within a registry that has air. -/
theorem Resolved.inRegistry (h : Resolved base (List.finRange sectionBlocks) blocks out) (hn : 1 < n)
    (hblocks : blocks.InRegistry n) (hbase : base.InRegistry n) : out.InRegistry n where
  width := h.width.trans hblocks.width
  cells i hi := by
    rw [h.cell hi, merged]
    split
    · exact BlockState.stored_lt (hbase.cells i hi) hn
    · exact hblocks.cells i hi

/-! ## Sections -/

/-- Without placeholders the blocks are stored as they are. -/
theorem storedCells_of_ne (h : ∀ i (hi : i < sectionBlocks), blocks.cells[i] ≠ .reserved) :
    blocks.storedCells = blocks.cells := by
  apply Vector.ext
  intro i hi
  rw [blocks.getElem_storedCells, BlockState.stored_of_ne (h i hi)]

/-- A clean encoder of the same sizes makes the same section of the blocks, in any session. -/
theorem IsClean.encode_again (hclean : e.IsClean) (h : e.encode blocks g s = .ok (encoded, e') t) (hf : f.IsClean)
    (hlarge : AsLarge e f) (s' : Session) : ∃ f' t', f.encode blocks g s' = .ok (encoded, f') t' := by
  have hsame := encode_same Run.Alike.logFree_true (hclean.sameTables hf hlarge) (Eq.refl blocks.cells) g
  obtain ⟨⟨encoded', f'⟩, t', hrun, ⟨heq, -⟩, -⟩ := hsame.ok_right (s := s) (t := s') trivial h
  cases heq
  exact ⟨f', t', hrun⟩

/-- Blocks that are as they are stored have the ordinals that are stored. -/
theorem storedPalette_of_storedCells (h : out.cells = blocks.storedCells) :
    out.storedPalette = blocks.storedPalette := by
  have hstored : BlockState.stored ∘ BlockState.stored = BlockState.stored := funext BlockState.stored_stored
  rw [SectionArray.storedPalette, h, SectionArray.storedCells, Vector.toList_map, List.map_map, hstored,
    SectionArray.storedPalette]

theorem encodeMerged_eq_ok (h : e.encodeMerged blocks base g s = .ok (encoded, out, e') t) :
    Resolved base (List.finRange sectionBlocks) blocks out ∧ e.encode out g s = .ok (encoded, e') t := by
  obtain ⟨resolved, s₁, hlift, h⟩ := Run.bind_eq_ok.1 h
  obtain ⟨hresolve, rfl⟩ := Run.lift_eq_ok.1 hlift
  obtain ⟨p, s₂, hrun, h⟩ := Run.bind_eq_ok.1 h
  cases h
  exact ⟨resolve_eq_ok hresolve, hrun⟩

/-- A base that fits the width of the edit is merged, and it is only left to encode the blocks. -/
theorem encodeMerged_of_holds (hfit : ∀ i (h : i < sectionBlocks), blocks.width.Holds base.cells[i]) :
    ∃ out, Resolved base (List.finRange sectionBlocks) blocks out ∧ ∀ (e : Encoder) (g : GlobalPalette),
      e.encodeMerged blocks base g = (fun p => (p.1, out, p.2)) <$> e.encode out g := by
  obtain ⟨out, hout⟩ := resolve_of_holds hfit (List.finRange sectionBlocks)
  refine ⟨out, resolve_eq_ok hout, fun e g => ?_⟩
  rw [encodeMerged, hout, map_eq_pure_bind]
  rfl

/-- Merging blocks that have no placeholder is to encode them. -/
theorem encodeMerged_self (h : ∀ i (hi : i < sectionBlocks), blocks.cells[i] ≠ .reserved)
    (hrun : e.encode blocks g s = .ok (encoded, e') t) :
    e.encodeMerged blocks base g s = .ok (encoded, blocks, e') t := by
  have hresolve : resolve base (List.finRange sectionBlocks) blocks = .ok blocks := resolve_self h
  rw [encodeMerged, Run.bind_of_ok (Run.lift_of_ok hresolve), Run.bind_of_ok hrun]
  rfl

/-- Within a registry an edit is merged and encoded. -/
theorem Ready.encodeMerged_returns (he : e.Ready n) (hn : 1 < n) (hblocks : blocks.InRegistry n)
    (hbase : base.InRegistry n) (s : Session) :
    ∃ encoded out e' t, e.encodeMerged blocks base (.identity n) s = .ok (encoded, out, e') t ∧
      out.InRegistry n := by
  obtain ⟨out, hresolved, hmerged⟩ := encodeMerged_of_holds fun i hi =>
    SectionArray.InRegistry.holds hblocks.width (hbase.cells i hi)
  have hout := hresolved.inRegistry hn hblocks hbase
  obtain ⟨encoded, e', t, hrun, -⟩ := he.encode_stores hout hn s
  refine ⟨encoded, out, e', t, ?_, hout⟩
  rw [hmerged]
  exact Run.map_of_ok hrun _

/-- When a clean encoder has merged an edit onto a base, each cell of the edit holds its own block, or that of the
base where it had none, or air where both had none. None holds a placeholder. The section is the one that every
clean encoder of the same sizes makes of these blocks. If the global palette has them, and no more ids than there are
32-bit numbers, the section decodes to exactly these blocks; of a larger palette it does so unless it uses the ids and
one of them is cut. Decoding it into an array of the width of the edit comes to the same. Merging the edit once more,
onto any base and by the encoder as it is now, goes through, leaves the edit as it is and gives the same section. -/
theorem encodeMerged_resolves (hclean : e.IsClean)
    (h : e.encodeMerged blocks base g s = .ok (encoded, out, e') t) :
    out.width = blocks.width ∧
      (∀ i (hi : i < sectionBlocks), out.cells[i] =
        if blocks.cells[i] ≠ .reserved then blocks.cells[i]
        else if base.cells[i] ≠ .reserved then base.cells[i] else .air) ∧
      (∀ i (hi : i < sectionBlocks), out.cells[i] ≠ .reserved) ∧
      (∀ f : Encoder, f.IsClean → AsLarge e f → ∀ s', ∃ f' t', f.encode out g s' = .ok (encoded, f') t') ∧
      ((∀ i (hi : i < sectionBlocks), out.cells[i] ∈ g.ordinals) →
        (g.size ≤ UInt32.size → encoded.decode g = pure out.cells.toArray ∧
          ∀ target : SectionArray, target.width = out.width →
            encoded.decodeInto g target = .ok (.ok (), out)) ∧
        (encoded.decode g = pure out.cells.toArray ↔
          (256 < out.storedPalette.length → ∀ i (hi : i < sectionBlocks), g.IdFits out.cells[i])) ∧
        ∀ target : SectionArray, target.width = out.width →
          (encoded.decodeInto g target = .ok (.ok (), out) ↔ encoded.decode g = pure out.cells.toArray)) ∧
      ∀ base' s', ∃ e'' t', e'.encodeMerged out base' g s' = .ok (encoded, out, e'') t' := by
  obtain ⟨hresolved, hrun⟩ := encodeMerged_eq_ok h
  have hne : ∀ i (hi : i < sectionBlocks), out.cells[i] ≠ .reserved := fun i hi => hresolved.ne_reserved hi
  refine ⟨hresolved.width, fun i hi => ?_, hne, fun f hf hlarge s' => hclean.encode_again hrun hf hlarge s',
    fun hknown => ?_, fun base' s' => ?_⟩
  · rw [hresolved.cell hi, merged_eq]
  · have hpalette : ∀ {p : BlockState → Prop}, (∀ v ∈ out.storedPalette, p v) ↔
        ∀ i (hi : i < sectionBlocks), p out.cells[i] := by
      intro p
      constructor
      · intro hall i hi
        have hv := hall _ (out.stored_mem_palette i hi)
        rwa [BlockState.stored_of_ne (hne i hi)] at hv
      · intro hall v hv
        obtain ⟨i, hi, rfl⟩ := SectionArray.mem_storedPalette.1 hv
        rw [BlockState.stored_of_ne (hne i hi)]
        exact hall i hi
    have hcovers : g.Covers out.storedPalette := hpalette.2 hknown
    have hdecode := decode_iff_of_encode hclean hrun fun _ => hcovers
    rw [storedCells_of_ne hne] at hdecode
    have hinto : ∀ target : SectionArray, target.width = out.width →
        (encoded.decodeInto g target = .ok (.ok (), out) ↔ encoded.decode g = pure out.cells.toArray) := by
      intro target htarget
      have hfilled := decodeInto_iff_of_encode hclean hrun htarget
      rw [storedCells_of_ne hne] at hfilled
      rw [← hfilled]
      constructor
      · exact fun h => ⟨out, h, htarget.symm, rfl⟩
      · rintro ⟨filled, hrun, hwidth, hcells⟩
        rw [hrun, SectionArray.ext_of_width (hwidth.trans htarget).symm hcells.symm]
    refine ⟨fun hsize => ?_, by rw [hdecode, hpalette], hinto⟩
    have hall : encoded.decode g = pure out.cells.toArray :=
      hdecode.2 fun _ v hv => GlobalPalette.idFits_of_size hsize (hcovers v hv)
    exact ⟨hall, fun target htarget => (hinto target htarget).2 hall⟩
  · obtain ⟨hclean', hlarge'⟩ := encode_leaves_clean hclean hrun
    obtain ⟨e'', t', hagain⟩ := hclean.encode_again hrun hclean' hlarge' s'
    exact ⟨e'', t', encodeMerged_self hne hagain⟩

/-- An edit of one block on top of 299 others. The blank block of the base becomes air. -/
theorem encodeMerged_resolves_manyStates :
    ∃ edit encoded out e' t, (SectionArray.blank .narrow).set 1 7 = .ok edit ∧
      (create 300).encodeMerged edit manyStates (.identity 300) {} = .ok (encoded, out, e') t ∧
      out.cells[0] = .air ∧ out.cells[1] = 7 ∧ out.cells[299] = 299 ∧
      encoded.decode (.identity 300) = pure out.cells.toArray ∧
      ∃ e'' t', e'.encodeMerged out (.blank .wide) (.identity 300) {} = .ok (encoded, out, e'') t' := by
  obtain ⟨edit, hset⟩ : ∃ edit, (SectionArray.blank .narrow).set 1 7 = .ok edit := ⟨_, rfl⟩
  obtain ⟨hwidth, hedit⟩ := SectionArray.set_eq_ok hset
  have hregistry : edit.InRegistry 300 := by
    refine ⟨hwidth, fun i hi => ?_⟩
    simp only [hedit, SectionArray.blank, SectionArray.constant, Vector.getElem_setIfInBounds,
      Vector.getElem_replicate]
    split <;> decide
  have hready := ready_create 300
  obtain ⟨encoded, out, e', t, hrun, hout⟩ :=
    hready.encodeMerged_returns (by decide) hregistry manyStates_inRegistry {}
  obtain ⟨-, hcells, hne, -, hdecode, hagain⟩ := encodeMerged_resolves hready.clean hrun
  have hcovers := hout.covers (show 1 < 300 by decide)
  have hknown : ∀ i (hi : i < sectionBlocks), out.cells[i] ∈ (GlobalPalette.identity 300).ordinals := by
    intro i hi
    have hmem := out.stored_mem_palette i hi
    rw [BlockState.stored_of_ne (hne i hi)] at hmem
    exact hcovers _ hmem
  obtain ⟨hdecode, -⟩ := (hdecode hknown).1 (GlobalPalette.size_identity_le 300)
  refine ⟨edit, encoded, out, e', t, hset, hrun, ?_, ?_, ?_, hdecode, hagain _ _⟩
  · rw [hcells 0 (by decide)]
    simp [hedit, SectionArray.blank, SectionArray.constant, manyStates, BlockState.reserved]
  · rw [hcells 1 (by decide)]
    simp [hedit, BlockState.reserved]
  · rw [hcells 299 (by decide)]
    simp [hedit, SectionArray.blank, SectionArray.constant, manyStates, BlockState.reserved]

/-- With a palette of `2 ^ 32 + 1` ids, which has an ordinal for each of them, the section that merging gives does not
decode to the blocks. -/
theorem encodeMerged_wrapping :
    ∃ encoded out e' t, (create 300).encodeMerged manyStates (.blank .narrow) .wrapping {} = .ok (encoded, out, e') t ∧
      (∀ i (hi : i < sectionBlocks), out.cells[i] ∈ GlobalPalette.wrapping.ordinals) ∧ out.cells[299] = 299 ∧
      encoded.get .wrapping 299 = pure 0 ∧ encoded.decode .wrapping ≠ pure out.cells.toArray := by
  have hready := ready_create 300
  have hblank : ∀ i (h : i < sectionBlocks), manyStates.width.Holds (SectionArray.blank .narrow).cells[i] := by
    intro i hi
    rw [SectionArray.blank, SectionArray.constant, Vector.getElem_replicate]
    decide
  obtain ⟨out, hresolved, hmerged⟩ := encodeMerged_of_holds hblank
  -- the blank base stands for air, as the placeholder does when it is stored
  have hcells : out.cells = manyStates.storedCells := by
    refine Vector.ext fun i hi => ?_
    rw [hresolved.cell hi, merged, SectionArray.blank, SectionArray.constant, Vector.getElem_replicate,
      manyStates.getElem_storedCells]
    rfl
  have hmany := length_storedPalette_manyStates
  rw [← storedPalette_of_storedCells hcells] at hmany
  have hlt : ∀ v ∈ out.storedPalette, v < 300 := by
    rw [storedPalette_of_storedCells hcells]
    exact fun v hv => manyStates_inRegistry.lt_of_mem (by decide) hv
  obtain ⟨encoded, e', t, hrun, -, -, hget⟩ :=
    encode_wrapping hready.clean (hready.fits_of_lt hlt .wrapping) hmany {}
  have hlast : out.cells[299] = 299 := by
    simp only [hcells, manyStates.getElem_storedCells]
    exact stored_manyStates (i := 299) (by decide) (by decide) (by decide)
  refine ⟨encoded, out, e', t, ?_, fun i hi => ?_, hlast, hget 299 (by decide), fun hdecode => ?_⟩
  · rw [hmerged]
    exact Run.map_of_ok hrun _
  · exact GlobalPalette.covers_wrapping [out.cells[i]] _ List.mem_cons_self
  · obtain ⟨-, hread⟩ := PalettedSection.decode_eq_pure_iff.1 hdecode
    have hread := hread 299 (by simp; decide)
    rw [Vector.getElem_toArray, hlast, hget 299 (by decide), Checked.pure_inj] at hread
    exact absurd hread (by decide)

end Encoder

end VoxelStore
