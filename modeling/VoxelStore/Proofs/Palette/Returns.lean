import VoxelStore.Proofs.Palette.Encoded
/-!
# When a section is encoded

A call of the encoder returns or faults. `pack_returns_iff` says when the packing of entries returns, and
`encode_returns_iff` when a whole call does: the tables have to be large enough for the ordinals and for the packed
words, and a section with too many ordinals for a palette of its own needs an id for each of them.
-/

namespace VoxelStore

/-- There are ids for the ordinals below the size of the table, whether they stand for an id or not. -/
theorem GlobalPalette.idOf_returns_iff {g : GlobalPalette} {v : BlockState} :
    (∃ id, g.idOf v = .ok id) ↔ v.toNat < g.ids.size := by
  unfold idOf
  constructor
  · rintro ⟨id, h⟩
    by_contra hout
    rw [Array.getElem?_eq_none (Nat.le_of_not_lt hout)] at h
    cases h
  · intro hv
    rw [Array.getElem?_eq_getElem hv]
    exact ⟨_, rfl⟩

/-- A section has no palette of its own exactly if it stores more than 256 ordinals. -/
theorem SectionArray.localBits_eq_none_iff (blocks : SectionArray) :
    PaletteKind.blocks.localBits blocks.storedPalette.length = none ↔ 256 < blocks.storedPalette.length := by
  have hmax := blocks.length_storedPalette_le_size
  rcases Encoder.localBits_blocks_cases hmax with ⟨hbits, hmany⟩ | ⟨hbits, hone⟩ | ⟨bits, hbits, h8, hpow, -⟩
  · simp [hbits, hmany]
  · simp [hbits]
    omega
  · have hle : 2 ^ (bits + 1) ≤ 2 ^ 8 := Nat.pow_le_pow_right (by decide) h8
    simp [hbits]
    omega

namespace Encoder

variable {e e' : Encoder} {blocks : SectionArray} {g : GlobalPalette} {s t : Session}
variable {encoded : PalettedSection}

/-- Packing takes room for the words, and an entry for each ordinal that is stored. -/
theorem pack_returns_iff {bits : Nat} {palette : Palette} {entry : BlockState → Except Fault UInt32} {nonAir : UInt16} :
    (∃ p, e.pack bits palette entry blocks nonAir = .ok p) ↔
      Packed.wordsNeeded sectionBlocks bits ≤ e.words.size ∧ ∀ v ∈ blocks.storedPalette, ∃ x, entry v = .ok x := by
  constructor
  · rintro ⟨⟨encoded, e'⟩, h⟩
    obtain ⟨entries, used, words, hfill, hpack, -, -⟩ := pack_eq_ok h
    obtain ⟨hused, hroom, -⟩ := Packed.packInto_eq_ok hpack
    rw [Vector.size_toArray] at hused
    refine ⟨hused ▸ hroom, fun v hv => ?_⟩
    obtain ⟨i, hi, rfl⟩ := SectionArray.mem_storedPalette.1 hv
    exact ⟨_, fill_finRange hfill hi⟩
  · rintro ⟨hroom, hall⟩
    have hstored : ∀ i ∈ List.finRange sectionBlocks, ∃ x, entry (blocks.cells.get i).stored = .ok x := fun i _ =>
      hall _ (blocks.stored_mem_palette i i.isLt)
    obtain ⟨entries, hfill⟩ := fill_of_ok hstored e.entries
    rw [← entries.size_toArray] at hroom
    obtain ⟨words, hpack, -⟩ := Packed.packInto_ok hroom
    exact ⟨_, except_bind_eq_ok.2 ⟨entries, hfill, except_bind_eq_ok.2 ⟨_, hpack, rfl⟩⟩⟩

/-- What a call that returned has needed. -/
theorem needs_of_encode (hclean : e.IsClean) (h : e.encode blocks g s = .ok (encoded, e') t) :
    e.Fits blocks g ∧ (256 < blocks.storedPalette.length → ∀ v ∈ blocks.storedPalette, v.toNat < g.ids.size) := by
  have hmax := blocks.length_storedPalette_le_size
  obtain ⟨e₁, c, hstates, -, hlarge, ⟨hone, -⟩ | ⟨hmore, hfew, e₂, hpack, -⟩ | ⟨hmany, e₂, hpack, -⟩⟩ :=
    encode_cases hclean h
  · refine ⟨⟨hstates, ?_⟩, fun hmany => by omega⟩
    rw [entryBits, PaletteKind.localBits_eq .blocks hmax, if_pos hone]
    exact Nat.le_trans (Nat.le_of_eq (Packed.wordsNeeded_zero _)) (Nat.zero_le _)
  · obtain ⟨hroom, -⟩ := pack_returns_iff.1 ⟨_, hpack⟩
    have hfew' : blocks.storedPalette.length ≤ 2 ^ PaletteKind.blocks.maxBits := hfew
    refine ⟨⟨hstates, ?_⟩, fun hmany => by omega⟩
    rw [entryBits, PaletteKind.localBits_eq .blocks hmax, if_neg (Nat.not_le_of_lt hmore), if_pos hfew',
      ← hlarge.words]
    exact hroom
  · obtain ⟨hroom, hids⟩ := pack_returns_iff.1 ⟨_, hpack⟩
    refine ⟨⟨hstates, ?_⟩, fun _ v hv => GlobalPalette.idOf_returns_iff.1 (hids v hv)⟩
    rwa [entryBits, blocks.localBits_eq_none_iff.2 hmany, ← hlarge.words]

/-- A clean encoder encodes what it has room for. Up to 256 ordinals the global palette does not matter, and beyond
that it needs to know an id for each of them, which may be any id. -/
theorem encode_returns_iff (hclean : e.IsClean) :
    (∃ encoded e' t, e.encode blocks g s = .ok (encoded, e') t) ↔
      e.Fits blocks g ∧
        (256 < blocks.storedPalette.length → ∀ v ∈ blocks.storedPalette, v.toNat < g.ids.size) := by
  constructor
  · rintro ⟨encoded, e', t, h⟩
    exact needs_of_encode hclean h
  rintro ⟨hfits, hids⟩
  by_cases hmany : 256 < blocks.storedPalette.length
  · obtain ⟨e₁, c, hnote, hnoted, -, hroom⟩ := hfits.noteAll hclean
    have hglobal := blocks.localBits_eq_none_iff.2 hmany
    rw [entryBits, hglobal, Option.getD_none] at hroom
    obtain ⟨p, hpack⟩ : ∃ p, e₁.pack g.bits .global g.idOf blocks c.nonAir = .ok p :=
      pack_returns_iff.2 ⟨hroom, fun v hv => GlobalPalette.idOf_returns_iff.2 (hids hmany v hv)⟩
    rw [encode, Run.bind_of_ok (Run.lift_of_ok hnote)]
    dsimp only
    rw [hnoted.distinct_eq, hglobal]
    exact ⟨_, _, _, (Run.bind_of_ok (Run.emit_eq _) _).trans (Run.bind_of_ok (Run.lift_of_ok hpack) _)⟩
  · obtain ⟨encoded, e', t, hrun, -⟩ := encode_stores hclean hfits (fun h => absurd h hmany) s
    exact ⟨encoded, e', t, hrun⟩

/-- An ordinal that stands for an id has one in the table. -/
theorem encode_returns_of_covers (hclean : e.IsClean) (hfits : e.Fits blocks g)
    (hcovers : 256 < blocks.storedPalette.length → g.Covers blocks.storedPalette) (s : Session) :
    ∃ encoded e' t, e.encode blocks g s = .ok (encoded, e') t := by
  refine (encode_returns_iff hclean).2 ⟨hfits, fun hmany v hv => ?_⟩
  obtain ⟨id, hid, -⟩ := GlobalPalette.exists_idOf (hcovers hmany v hv)
  exact GlobalPalette.idOf_returns_iff.1 ⟨id, hid⟩

end Encoder

end VoxelStore
