import VoxelStore.Proofs.Palette.Returns
import VoxelStore.Proofs.Palette.Shape
/-!
# Why a section is not encoded

A clean encoder faults for four reasons (`Encoder.Lacks`): an ordinal has no place in its index table, or no id, or
the words do not suffice for the indices or for the ids. Each fault says which of them it is (`encode_eq_error`), and
each of them ends in a fault (`Lacks.not_returns`). Nothing else of an encoder can be too small: there are no more
ordinals to note than blocks, and no more blocks of the air family to count.
-/

namespace VoxelStore

theorem GlobalPalette.idOf_eq_error {g : GlobalPalette} {v : BlockState} {f : Fault} (h : g.idOf v = .error f) :
    g.ids.size ≤ v.toNat ∧ f = .outOfBounds v.toNat g.ids.size := by
  unfold idOf at h
  split at h
  · cases h
  · next hnone =>
    cases h
    exact ⟨Array.getElem?_eq_none_iff.1 hnone, rfl⟩

theorem Packed.packInto_eq_error {bits : Nat} {values : Array UInt32} {scratch : Array UInt64} {f : Fault}
    (h : packInto bits values scratch = .error f) :
    scratch.size < wordsNeeded values.size bits ∧
      f = .scratchTooSmall scratch.size (wordsNeeded values.size bits) := by
  unfold packInto at h
  dsimp only at h
  split at h
  · next hsmall =>
    cases h
    exact ⟨hsmall, rfl⟩
  · cases h

namespace Encoder

variable {e e' : Encoder} {blocks : SectionArray} {g : GlobalPalette} {s t : Session} {f : Fault}
variable {c : Census} {seen ordinals : List BlockState} {v : BlockState}

/-- What an encoder has not got for a section, and the fault that says so. -/
inductive Lacks (e : Encoder) (blocks : SectionArray) (g : GlobalPalette) : Fault → Prop
  | place {v : BlockState} : v ∈ blocks.storedPalette → e.indexOf.size ≤ v.toNat →
      Lacks e blocks g (.outOfBounds v.toNat e.indexOf.size)
  | localWords {bits : Nat} : 2 ≤ blocks.storedPalette.length → blocks.storedPalette.length ≤ 256 →
      PaletteKind.blocks.localBits blocks.storedPalette.length = some bits →
      e.words.size < Packed.wordsNeeded sectionBlocks bits →
      Lacks e blocks g (.scratchTooSmall e.words.size (Packed.wordsNeeded sectionBlocks bits))
  | globalId {v : BlockState} : 256 < blocks.storedPalette.length → v ∈ blocks.storedPalette → g.ids.size ≤ v.toNat →
      Lacks e blocks g (.outOfBounds v.toNat g.ids.size)
  | globalWords : 256 < blocks.storedPalette.length → e.words.size < Packed.wordsNeeded sectionBlocks g.bits →
      Lacks e blocks g (.scratchTooSmall e.words.size (Packed.wordsNeeded sectionBlocks g.bits))

/-! ## The first pass -/

/-- The first pass ends at an ordinal without a place in the index table. The palette has a slot for every block. -/
theorem Noted.noteAll_eq_error (h : e.Noted seen c) (hroom : seen.length + ordinals.length ≤ sectionBlocks)
    (hrun : e.noteAll c ordinals = .error f) :
    ∃ v ∈ ordinals, e.indexOf.size ≤ v.stored.toNat ∧ f = .outOfBounds v.stored.toNat e.indexOf.size := by
  induction ordinals generalizing e c seen with
  | nil => cases hrun
  | cons v ordinals ih =>
    rw [List.length_cons] at hroom
    rw [Encoder.noteAll, List.foldlM_cons] at hrun
    by_cases hv : v.stored.toNat < e.indexOf.size
    · obtain ⟨e₁, c₁, hnote, hnoted, hlarge⟩ := h.note (by omega) hv
      rcases except_bind_eq_error.1 hrun with hnote' | ⟨p, hnote', hrun⟩
      · cases hnote.symm.trans hnote'
      · cases hnote.symm.trans hnote'
        obtain ⟨u, hu, hfault⟩ := ih hnoted (by rw [List.length_append, List.length_singleton]; omega) hrun
        rw [hlarge.indexOf] at hfault
        exact ⟨u, List.mem_cons_of_mem v hu, hfault⟩
    · have hout := Nat.le_of_not_lt hv
      rw [Encoder.note, Array.getElem?_eq_none hout] at hrun
      cases hrun
      exact ⟨v, List.mem_cons_self, hout, rfl⟩

/-- However far the first pass has come, it has not noted more ordinals than there are blocks, and the blocks that are
left in the count and those of the air family are all blocks. -/
theorem census_of_noteAll {k : Nat} (hclean : e.IsClean)
    (h : e.noteAll {} (blocks.cells.toList.take k) = .ok (e', c)) :
    c.distinct ≤ min k sectionBlocks ∧
      c.nonAir.toNat + (blocks.cells.toList.take k).countP BlockState.isAir = sectionBlocks := by
  have hlen : (blocks.cells.toList.take k).length = min k sectionBlocks := by
    rw [List.length_take, Vector.length_toList]
  obtain ⟨-, hnoted, -⟩ := noted_of_noteAll hclean (hlen ▸ Nat.min_le_right ..) h
  have hle := length_eraseDups_le ((blocks.cells.toList.take k).map BlockState.stored)
  have hcount := hnoted.nonAir
  rw [List.length_map, hlen] at hle
  rw [countP_stored] at hcount
  exact ⟨hnoted.distinct ▸ hle, hcount⟩

/-! ## The second pass -/

/-- Filling ends at a block without an entry. -/
theorem fill_eq_error {entry : BlockState → Except Fault UInt32} {l : List (Fin sectionBlocks)}
    {entries : Vector UInt32 sectionBlocks} (h : fill entry blocks l entries = .error f) :
    ∃ v ∈ blocks.storedPalette, entry v = .error f := by
  induction l generalizing entries with
  | nil => cases h
  | cons i l ih =>
    rcases except_bind_eq_error.1 h with hentry | ⟨x, -, h⟩
    · exact ⟨_, blocks.stored_mem_palette i i.isLt, hentry⟩
    · exact ih h

theorem pack_eq_error {bits : Nat} {palette : Palette} {entry : BlockState → Except Fault UInt32} {nonAir : UInt16}
    (h : e.pack bits palette entry blocks nonAir = .error f) :
    (∃ v ∈ blocks.storedPalette, entry v = .error f) ∨
      (e.words.size < Packed.wordsNeeded sectionBlocks bits ∧
        f = .scratchTooSmall e.words.size (Packed.wordsNeeded sectionBlocks bits)) := by
  rcases except_bind_eq_error.1 h with hfill | ⟨entries, -, h⟩
  · exact .inl (fill_eq_error hfill)
  · rcases except_bind_eq_error.1 h with hpack | ⟨p, -, h⟩
    · have hsmall := Packed.packInto_eq_error hpack
      rw [Vector.size_toArray] at hsmall
      exact .inr hsmall
    · cases h

/-! ## A whole call -/

/-- A fault says what the encoder has not got. -/
theorem encode_eq_error (hclean : e.IsClean) (h : e.encode blocks g s = .error f t) : e.Lacks blocks g f := by
  rcases Run.bind_eq_error.1 h with hnote | ⟨⟨e₁, c⟩, s₁, hnote, h⟩
  · obtain ⟨v, hv, hout, rfl⟩ :=
      (noted_of_clean hclean).noteAll_eq_error (by simp) (Run.lift_eq_error.1 hnote).1
    obtain ⟨i, hi, rfl⟩ := Vector.mem_iff_getElem.1 (Vector.mem_toList_iff.1 hv)
    exact .place (blocks.stored_mem_palette i hi) hout
  obtain ⟨hstates, hnoted, hlarge⟩ := noted_of_noteAll hclean (by simp) (Run.lift_eq_ok.1 hnote).1
  have hmax := blocks.length_storedPalette_le_size
  dsimp only at h
  rw [hnoted.distinct_eq] at h
  rcases localBits_blocks_cases hmax with ⟨hbits, hmany⟩ | ⟨hbits, hone⟩ | ⟨bits, hbits, h8, hpow, hmore, -⟩
  · rw [hbits] at h
    dsimp only at h
    rw [Run.bind_of_ok (Run.emit_eq _)] at h
    rcases Run.bind_eq_error.1 h with hpack | ⟨p, s₂, -, h⟩
    · rcases pack_eq_error (Run.lift_eq_error.1 hpack).1 with ⟨v, hv, hid⟩ | ⟨hroom, rfl⟩
      · obtain ⟨hout, rfl⟩ := GlobalPalette.idOf_eq_error hid
        exact .globalId hmany hv hout
      · rw [hlarge.words] at hroom ⊢
        exact .globalWords hmany hroom
    · cases h
  · rw [hbits] at h
    cases h
  · rw [hbits] at h
    rcases Run.bind_eq_error.1 h with hpack | ⟨p, s₂, -, h⟩
    · rcases pack_eq_error (Run.lift_eq_error.1 hpack).1 with ⟨v, hv, hindex⟩ | ⟨hroom, rfl⟩
      · -- the ordinals of the second pass are those that the first one has noted
        have hseen := List.mem_eraseDups.1 hv
        obtain ⟨u, hu, rfl⟩ := List.mem_map.1 hseen
        cases (hnoted.localIndex_eq hseen (hlarge.indexOf.symm ▸ hstates u hu)).symm.trans hindex
      · have hle : 2 ^ (bits + 1) ≤ 2 ^ 8 := Nat.pow_le_pow_right (by decide) h8
        rw [hlarge.words] at hroom ⊢
        exact .localWords hmore (Nat.le_trans hpow hle) hbits hroom
    · cases h

/-- What is lacking does end in a fault. -/
theorem Lacks.not_returns (h : e.Lacks blocks g f) (hclean : e.IsClean) :
    ¬∃ r t, e.encode blocks g s = .ok r t := by
  rintro ⟨⟨encoded, e'⟩, t, hrun⟩
  obtain ⟨⟨hstates, hwords⟩, hids⟩ := needs_of_encode hclean hrun
  cases h with
  | place hv hout => exact Nat.not_lt_of_le hout (hstates _ hv)
  | localWords _ _ hbits hroom =>
    rw [entryBits, hbits] at hwords
    exact Nat.not_lt_of_le hwords hroom
  | globalId hmany hv hout => exact Nat.not_lt_of_le hout (hids hmany _ hv)
  | globalWords hmany hroom =>
    rw [entryBits, blocks.localBits_eq_none_iff.2 hmany] at hwords
    exact Nat.not_lt_of_le hwords hroom

/-- The tables that are made for a registry lack nothing for a section of ordinals below its size. -/
theorem create_encode_returns {n : UInt32} (hn : 1 < n) (h : ∀ i (hi : i < sectionBlocks), blocks.cells[i] < n)
    (s : Session) : ∃ r t, (create n).encode blocks (.identity n) s = .ok r t := by
  have hlt : ∀ v ∈ blocks.storedPalette, v < n := by
    intro v hv
    obtain ⟨i, hi, rfl⟩ := SectionArray.mem_storedPalette.1 hv
    exact BlockState.stored_lt (h i hi) hn
  have hready := ready_create n
  obtain ⟨encoded, e', t, hrun⟩ := (encode_returns_iff hready.clean).2
    ⟨hready.fits_of_lt hlt _, fun _ v hv =>
      GlobalPalette.idOf_returns_iff.1 ⟨v, GlobalPalette.idOf_identity (hlt v hv)⟩⟩
  exact ⟨_, t, hrun⟩

/-- A clean encoder faults exactly if it lacks something: a place in its index table for an ordinal that is stored;
the words for the indices of 2 to 256 ordinals; an id for one of more than 256 ordinals, or the words for their ids.
The fault says which. However far the first pass has come, there are not more ordinals in the palette than there are
blocks, and the blocks that are left in the count and those of the air family are all blocks. The tables that are made
for a registry, and the ids that are its ordinals, lack nothing for a section of ordinals below its size. -/
theorem encode_faults_iff (hclean : e.IsClean) :
    let d := blocks.storedPalette.length
    ((∃ f t, e.encode blocks g s = .error f t) ↔
      (∃ v ∈ blocks.storedPalette, e.indexOf.size ≤ v.toNat) ∨
      (2 ≤ d ∧ d ≤ 256 ∧ ∃ bits, PaletteKind.blocks.localBits d = some bits ∧
        e.words.size < Packed.wordsNeeded sectionBlocks bits) ∨
      (256 < d ∧ ((∃ v ∈ blocks.storedPalette, g.ids.size ≤ v.toNat) ∨
        e.words.size < Packed.wordsNeeded sectionBlocks g.bits))) ∧
      (∀ f t, e.encode blocks g s = .error f t → e.Lacks blocks g f) ∧
      (∀ k e' c, e.noteAll {} (blocks.cells.toList.take k) = .ok (e', c) → c.distinct ≤ min k sectionBlocks ∧
        c.nonAir.toNat + (blocks.cells.toList.take k).countP BlockState.isAir = sectionBlocks) ∧
      (∀ encoded e' t, e.encode blocks g s = .ok (encoded, e') t →
        encoded.nonAir.toNat + blocks.cells.countP BlockState.isAir = sectionBlocks) ∧
      ∀ n, 1 < n → (∀ i (hi : i < sectionBlocks), blocks.cells[i] < n) →
        ∀ s, ∃ r t, (create n).encode blocks (.identity n) s = .ok r t := by
  refine ⟨?_, fun f t h => encode_eq_error hclean h, fun k e' c h => census_of_noteAll hclean h,
    fun encoded e' t h => nonAir_of_encode hclean h ▸ blocks.nonAir_add_countP,
    fun n hn h s => create_encode_returns hn h s⟩
  constructor
  · rintro ⟨f, t, h⟩
    cases encode_eq_error hclean h with
    | place hv hout => exact .inl ⟨_, hv, hout⟩
    | localWords hmore hfew hbits hroom => exact .inr (.inl ⟨hmore, hfew, _, hbits, hroom⟩)
    | globalId hmany hv hout => exact .inr (.inr ⟨hmany, .inl ⟨_, hv, hout⟩⟩)
    | globalWords hmany hroom => exact .inr (.inr ⟨hmany, .inr hroom⟩)
  · intro h
    rw [Run.faults_iff]
    rcases h with ⟨v, hv, hout⟩ | ⟨hmore, hfew, bits, hbits, hroom⟩ | ⟨hmany, ⟨v, hv, hout⟩ | hroom⟩
    · exact (Lacks.place hv hout).not_returns hclean
    · exact (Lacks.localWords hmore hfew hbits hroom).not_returns hclean
    · exact (Lacks.globalId hmany hv hout).not_returns hclean
    · exact (Lacks.globalWords hmany hroom).not_returns hclean

/-- The ids of 300 states take nine bits each and 586 words together. One word less is one too few. -/
theorem encode_faults_iff_manyStates :
    ∃ t, (clean 300 585).encode manyStates (.identity 300) {} = .error (.scratchTooSmall 585 586) t := by
  have hlt : ∀ v ∈ manyStates.storedPalette, v < 300 := fun v hv => manyStates_inRegistry.lt_of_mem (by decide) hv
  have hplaces : (clean 300 585).indexOf.size = 300 := Array.size_replicate
  have hheld : (clean 300 585).words.size = 585 := Array.size_replicate
  have hneeded : Packed.wordsNeeded sectionBlocks (GlobalPalette.identity 300).bits = 586 := by decide +kernel
  obtain ⟨hiff, hcause, -⟩ :=
    @encode_faults_iff (clean 300 585) manyStates (.identity 300) {} (isClean_clean 300 585)
  have hroom : (clean 300 585).words.size < Packed.wordsNeeded sectionBlocks (GlobalPalette.identity 300).bits := by
    rw [hheld, hneeded]
    decide
  obtain ⟨f, t, hrun⟩ := hiff.2 (.inr (.inr ⟨length_storedPalette_manyStates, .inr hroom⟩))
  refine ⟨t, ?_⟩
  rw [hrun]
  cases hcause f t hrun with
  | place hv hout =>
    rw [hplaces] at hout
    exact absurd (UInt32.lt_iff_toNat_lt.1 (hlt _ hv)) (Nat.not_lt_of_le hout)
  | localWords _ hfew => exact absurd length_storedPalette_manyStates (Nat.not_lt_of_le hfew)
  | globalId _ hv hout =>
    have hid := GlobalPalette.idOf_returns_iff.1 ⟨_, GlobalPalette.idOf_identity (hlt _ hv)⟩
    exact absurd hid (Nat.not_lt_of_le hout)
  | globalWords => rw [hheld, hneeded]

end Encoder

end VoxelStore
