import VoxelStore.Proofs.Palette.Encoding
/-!
# What a call has done

A call that ended in a section has found a place for every ordinal and an entry for every block. `encode_cases` takes
it apart: the tables after the first pass, the palette that was chosen, and the entries that were packed. Whatever was
encoded, the slots that were in use are unset again (`encode_leaves_clean`), as packing changes nothing but the entries
and the words.
-/

namespace VoxelStore

namespace Encoder

variable {e e' : Encoder} {c c' : Census} {blocks : SectionArray} {g : GlobalPalette} {s t : Session}
variable {encoded : PalettedSection} {seen ordinals : List BlockState} {v : BlockState} {f : Fault}

/-! ## The first pass -/

theorem note_eq_ok (h : e.note c v = .ok (e', c')) :
    v.toNat < e.indexOf.size ∧ AsLarge e e' := by
  unfold note at h
  split at h
  · cases h
  · next slot hslot =>
    refine ⟨(Array.getElem?_eq_some_iff.1 hslot).1, ?_⟩
    split at h
    · cases h
      exact ⟨rfl, rfl⟩
    · split at h
      · cases h
        exact ⟨by simp, rfl⟩
      · cases h

/-- What was noted, if there were no more ordinals than blocks. -/
theorem Noted.noteAll_eq_ok (h : e.Noted seen c) (hroom : seen.length + ordinals.length ≤ sectionBlocks)
    (hrun : e.noteAll c ordinals = .ok (e', c')) :
    (∀ v ∈ ordinals, v.stored.toNat < e.indexOf.size) ∧ e'.Noted (seen ++ ordinals.map BlockState.stored) c' ∧
      AsLarge e e' := by
  have hstates : ∀ v ∈ ordinals, v.stored.toNat < e.indexOf.size := by
    clear h hroom
    induction ordinals generalizing e c with
    | nil => exact fun v hv => absurd hv List.not_mem_nil
    | cons v ordinals ih =>
      rw [Encoder.noteAll, List.foldlM_cons] at hrun
      obtain ⟨⟨e₁, c₁⟩, hnote, hrun⟩ := except_bind_eq_ok.1 hrun
      obtain ⟨hv, hlarge⟩ := note_eq_ok hnote
      refine List.forall_mem_cons.2 ⟨hv, fun u hu => ?_⟩
      rw [← hlarge.indexOf]
      exact ih hrun u hu
  obtain ⟨e₁, c₁, hrun', hnoted, hlarge⟩ := h.noteAll hroom hstates
  cases hrun.symm.trans hrun'
  exact ⟨hstates, hnoted, hlarge⟩

/-- What was noted of a whole section, or of the first blocks of it. -/
theorem noted_of_noteAll (hclean : e.IsClean) (hroom : ordinals.length ≤ sectionBlocks)
    (h : e.noteAll {} ordinals = .ok (e', c)) :
    (∀ v ∈ ordinals, v.stored.toNat < e.indexOf.size) ∧ e'.Noted (ordinals.map BlockState.stored) c ∧ AsLarge e e' :=
  (noted_of_clean hclean).noteAll_eq_ok (by rwa [List.length_nil, Nat.zero_add]) h

/-! ## Packing -/

/-- What is packed are the entries of all blocks, and packing changes no table but the entries and the words. -/
theorem pack_eq_ok {bits : Nat} {palette : Palette} {entry : BlockState → Except Fault UInt32} {nonAir : UInt16}
    (h : e.pack bits palette entry blocks nonAir = .ok (encoded, e')) :
    ∃ entries used words, fill entry blocks (List.finRange sectionBlocks) e.entries = .ok entries ∧
      Packed.packInto bits entries.toArray e.words = .ok (used, words) ∧
      encoded = ⟨.blocks, palette, ⟨sectionBlocks, bits, words.extract 0 used⟩, nonAir⟩ ∧
      e' = { e with entries, words } := by
  obtain ⟨entries, hentries, h⟩ := except_bind_eq_ok.1 h
  obtain ⟨⟨used, words⟩, hpack, h⟩ := except_bind_eq_ok.1 h
  cases h
  exact ⟨entries, used, words, hentries, hpack, rfl, rfl⟩

theorem Noted.forget_of_pack {bits : Nat} {palette : Palette} {entry : BlockState → Except Fault UInt32}
    {nonAir : UInt16} (h : e.Noted seen c) (hpack : e.pack bits palette entry blocks nonAir = .ok (encoded, e')) :
    (e'.forget c.distinct).IsClean ∧ AsLarge e (e'.forget c.distinct) := by
  obtain ⟨entries, used, words, -, hwords, -, rfl⟩ := pack_eq_ok hpack
  obtain ⟨-, -, hsize, -⟩ := Packed.packInto_eq_ok hwords
  have hsame : AsLarge e { e with entries, words } := ⟨rfl, hsize⟩
  obtain ⟨hclean, hlarge⟩ := (h.scratch entries words).forget
  exact ⟨hclean, hsame.trans hlarge⟩

/-! ## A whole call -/

/-- A section gets the palette that the number of its ordinals allows, and then everything is forgotten. -/
theorem encode_cases (hclean : e.IsClean) (h : e.encode blocks g s = .ok (encoded, e') t) :
    ∃ e₁ c, (∀ v ∈ blocks.storedPalette, v.toNat < e.indexOf.size) ∧
      e₁.Noted (blocks.cells.toList.map BlockState.stored) c ∧ AsLarge e e₁ ∧
      ((blocks.storedPalette.length ≤ 1 ∧ encoded = .single .blocks blocks.first.stored blocks.nonAir ∧
          e' = e₁.forget c.distinct) ∨
        (1 < blocks.storedPalette.length ∧ blocks.storedPalette.length ≤ 256 ∧
          ∃ e₂, e₁.pack (max 4 (bitLength (blocks.storedPalette.length - 1)))
            (.indirect blocks.storedPalette.toArray) e₁.localIndex blocks blocks.nonAir = .ok (encoded, e₂) ∧
            e' = e₂.forget c.distinct) ∨
        (256 < blocks.storedPalette.length ∧
          ∃ e₂, e₁.pack g.bits .global g.idOf blocks blocks.nonAir = .ok (encoded, e₂) ∧
            e' = e₂.forget c.distinct)) := by
  obtain ⟨⟨e₁, c⟩, s₁, hnote, h⟩ := Run.bind_eq_ok.1 h
  obtain ⟨hstates, hnoted, hlarge⟩ := noted_of_noteAll hclean (by simp) (Run.lift_eq_ok.1 hnote).1
  have hmax := blocks.length_storedPalette_le_size
  refine ⟨e₁, c, fun v hv => ?_, hnoted, hlarge, ?_⟩
  · obtain ⟨u, hu, rfl⟩ := List.mem_map.1 (List.mem_eraseDups.1 hv)
    exact hstates u hu
  have hnotedPalette : e₁.noted c.distinct = blocks.storedPalette.toArray := hnoted.noted_eq
  dsimp only at h
  rw [hnotedPalette, hnoted.nonAir_eq] at h
  rw [hnoted.distinct_eq] at h ⊢
  rcases localBits_blocks_cases hmax with ⟨hbits, hmany⟩ | ⟨hbits, hone⟩ | ⟨bits, hbits, h8, hpow, hmore, hmin⟩
  all_goals rw [hbits] at h
  · obtain ⟨-, s₂, -, h⟩ := Run.bind_eq_ok.1 h
    obtain ⟨p, s₃, hpack, h⟩ := Run.bind_eq_ok.1 h
    cases h
    exact .inr (.inr ⟨hmany, _, (Run.lift_eq_ok.1 hpack).1, rfl⟩)
  · rw [hnoted.get_zero hone] at h
    cases h
    exact .inl ⟨hone, rfl, rfl⟩
  · obtain ⟨p, s₂, hpack, h⟩ := Run.bind_eq_ok.1 h
    cases h
    have hle : 2 ^ (bits + 1) ≤ 2 ^ 8 := Nat.pow_le_pow_right (by decide) h8
    rw [← hmin]
    exact .inr (.inl ⟨hmore, Nat.le_trans hpow hle, _, (Run.lift_eq_ok.1 hpack).1, rfl⟩)

/-- Whichever palette a section gets, the encoder is clean again after it. -/
theorem encode_leaves_clean (hclean : e.IsClean)
    (h : e.encode blocks g s = .ok (encoded, e') t) : e'.IsClean ∧ AsLarge e e' := by
  obtain ⟨e₁, c, -, hnoted, hlarge, ⟨-, -, rfl⟩ | ⟨-, -, e₂, hpack, rfl⟩ | ⟨-, e₂, hpack, rfl⟩⟩ := encode_cases hclean h
  · obtain ⟨hc, hl⟩ := hnoted.forget
    exact ⟨hc, hlarge.trans hl⟩
  all_goals
    obtain ⟨hc, hl⟩ := hnoted.forget_of_pack hpack
    exact ⟨hc, hlarge.trans hl⟩

/-- The blocks outside of the air family are counted. -/
theorem nonAir_of_encode (hclean : e.IsClean) (h : e.encode blocks g s = .ok (encoded, e') t) :
    encoded.nonAir = blocks.nonAir := by
  obtain ⟨e₁, c, -, -, -, ⟨-, rfl, -⟩ | ⟨-, -, e₂, hpack, -⟩ | ⟨-, e₂, hpack, -⟩⟩ := encode_cases hclean h
  · rfl
  all_goals
    obtain ⟨entries, used, words, -, -, rfl, -⟩ := pack_eq_ok hpack
    rfl

/-- The palette of a section holds ordinals that the section stores. -/
theorem mem_palette_of_encode (hclean : e.IsClean) (h : e.encode blocks g s = .ok (encoded, e') t)
    (hv : v ∈ encoded.palette.values) : v ∈ blocks.storedPalette := by
  obtain ⟨e₁, c, -, -, -, ⟨-, rfl, -⟩ | ⟨-, -, e₂, hpack, -⟩ | ⟨-, e₂, hpack, -⟩⟩ := encode_cases hclean h
  · rw [Array.mem_singleton.1 hv]
    exact blocks.stored_mem_palette 0 (by decide)
  · obtain ⟨entries, used, words, -, -, rfl, -⟩ := pack_eq_ok hpack
    exact List.mem_toArray.1 hv
  · obtain ⟨entries, used, words, -, -, rfl, -⟩ := pack_eq_ok hpack
    exact absurd hv (Array.not_mem_empty v)

end Encoder

end VoxelStore
