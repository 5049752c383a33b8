import VoxelStore.Proofs.Palette.EntryBits
/-!
# The width of a local index

A palette of `len` values has `len` indices, and the least width for them is the bit length of the greatest
(`isLeast_bitLength`). `PaletteKind.Suits` says which width, if any, a kind of section is to choose for so many
values. The choice is made by the lower 32 bits of the greatest index, and suits a palette of `seenLength len` values.
Up to `2 ^ 32` values that is their number; a greater one is served right exactly if the palette is seen to be too
large all the same (`localBits_suits_iff`).
-/

namespace VoxelStore

/-- Only a single index needs no bits. -/
theorem bitLength_pred_eq_zero_iff (len : Nat) : bitLength (len - 1) = 0 ↔ len ≤ 1 := by
  rw [← Nat.le_zero, bitLength_le_iff]
  omega

namespace PaletteKind

variable {kind : PaletteKind} {len fewer w b : Nat}

/-! ## Widths that suit a palette -/

/-- The width suits a palette of `len` values: there is none exactly if the palette is too large for the kind.
Otherwise it has room for all indices, is zero exactly if there is no more than one of them, and is the least such
width, which the kind may raise if it is not zero. -/
structure Suits (kind : PaletteKind) (len : Nat) (width : Option Nat) : Prop where
  none_iff : width = none ↔ 2 ^ kind.maxBits < len
  room : ∀ b ∈ width, len ≤ 2 ^ b
  zero_iff : ∀ b ∈ width, b = 0 ↔ len ≤ 1
  least : ∀ b ∈ width, ∃ w, IsLeast {w | len ≤ 2 ^ w} w ∧ b = if w = 0 then 0 else max kind.minBits w

/-- The first width is at most the second. No width at all counts as above every width. -/
def NoWider (x y : Option Nat) : Prop := ∀ c ∈ y, ∃ b ∈ x, b ≤ c

theorem suits_none (h : 2 ^ kind.maxBits < len) : kind.Suits len none :=
  ⟨iff_of_true rfl h, nofun, nofun, nofun⟩

/-- The raised width has the room of the least one, and is zero only if that is. -/
theorem suits_some (h : len ≤ 2 ^ kind.maxBits) (hw : IsLeast {w | len ≤ 2 ^ w} w)
    (hb : b = if w = 0 then 0 else max kind.minBits w) : kind.Suits len (some b) := by
  have hle : w ≤ b := by
    rw [hb]
    split <;> omega
  have hzero : b = 0 ↔ len ≤ 1 := by
    constructor
    · intro h0
      have hw0 : w = 0 := by omega
      exact (hw0 ▸ hw.1 : len ≤ 2 ^ 0)
    · intro hone
      have hw0 : w = 0 := Nat.le_zero.1 (hw.2 (show len ≤ 2 ^ 0 from hone))
      rw [hb, if_pos hw0]
  refine ⟨iff_of_false nofun (Nat.not_lt.2 h), ?_, ?_, ?_⟩
  · rintro c ⟨⟩
    exact Nat.le_trans hw.1 (Nat.pow_le_pow_right (by decide) hle)
  · rintro c ⟨⟩
    exact hzero
  · rintro c ⟨⟩
    exact ⟨w, hw, hb⟩

/-- Of two palettes the smaller one has no wider indices, whatever widths suit them. -/
theorem Suits.noWider {x y : Option Nat} (hx : kind.Suits fewer x) (hy : kind.Suits len y) (hle : fewer ≤ len) :
    NoWider x y := by
  intro c hc
  -- the larger palette is not too large, so the smaller one is not either
  have hsome : x ≠ none := fun hnone => by
    rw [hy.none_iff.2 (Nat.lt_of_lt_of_le (hx.none_iff.1 hnone) hle)] at hc
    cases hc
  obtain ⟨b, hb⟩ := Option.ne_none_iff_exists'.1 hsome
  obtain ⟨w, hw, rfl⟩ := hx.least b hb
  obtain ⟨w', hw', rfl⟩ := hy.least c hc
  have hww : w ≤ w' := hw.2 (Nat.le_trans hle hw'.1)
  refine ⟨_, hb, ?_⟩
  split
  · exact Nat.zero_le _
  · rw [if_neg (by omega)]
    omega

/-! ## The width that is chosen -/

/-- The number of values that a palette of `len` values is taken to have. -/
def seenLength (len : Nat) : Nat := (len - 1) % UInt32.size + 1

theorem localBits_seenLength (kind : PaletteKind) (len : Nat) :
    kind.localBits (seenLength len) = kind.localBits len := by
  simp only [localBits, seenLength, Nat.add_sub_cancel, Nat.mod_mod]

theorem seenLength_le (len : Nat) : seenLength len ≤ UInt32.size :=
  Nat.mod_lt _ (by decide)

theorem two_pow_maxBits_lt (kind : PaletteKind) : 2 ^ kind.maxBits < UInt32.size := by
  cases kind <;> decide

theorem localBits_suits (h : len ≤ UInt32.size) : kind.Suits len (kind.localBits len) := by
  have hpow : 1 ≤ 2 ^ kind.maxBits := Nat.one_le_two_pow
  rw [localBits_eq kind h]
  split
  · next hone =>
    exact suits_some (Nat.le_trans hone hpow) (isLeast_bitLength len)
      (if_pos ((bitLength_pred_eq_zero_iff len).2 hone)).symm
  · next hmore =>
    split
    · next hfew =>
      exact suits_some hfew (isLeast_bitLength len)
        (if_neg fun h0 => hmore ((bitLength_pred_eq_zero_iff len).1 h0)).symm
    · next hmany => exact suits_none (Nat.lt_of_not_le hmany)

theorem localBits_suits_seenLength (kind : PaletteKind) (len : Nat) :
    kind.Suits (seenLength len) (kind.localBits len) := by
  rw [← localBits_seenLength]
  exact localBits_suits (seenLength_le len)

/-- The width suits the number of values that the palette is taken to have. It suits the palette, and no smaller one
has a greater width, exactly if there are no more than `2 ^ 32` values or the palette is seen to be too large. Any other
number of values is taken for a small one, and then there is not room for all of them. -/
theorem localBits_suits_iff (kind : PaletteKind) (len : Nat) :
    kind.Suits (seenLength len) (kind.localBits len) ∧
      (kind.Suits len (kind.localBits len) ↔ len ≤ UInt32.size ∨ 2 ^ kind.maxBits < seenLength len) ∧
      ((∀ fewer, fewer ≤ len → NoWider (kind.localBits fewer) (kind.localBits len)) ↔
        len ≤ UInt32.size ∨ 2 ^ kind.maxBits < seenLength len) := by
  have hsuits := localBits_suits_seenLength kind len
  refine ⟨hsuits, ?_⟩
  by_cases hlen : len ≤ UInt32.size
  · refine ⟨iff_of_true (localBits_suits hlen) (.inl hlen), iff_of_true (fun fewer hle => ?_) (.inl hlen)⟩
    exact (localBits_suits (Nat.le_trans hle hlen)).noWider (localBits_suits hlen) hle
  have hmany : 2 ^ kind.maxBits < len := Nat.lt_trans (two_pow_maxBits_lt kind) (Nat.lt_of_not_le hlen)
  by_cases hseen : 2 ^ kind.maxBits < seenLength len
  · rw [hsuits.none_iff.2 hseen]
    exact ⟨iff_of_true (suits_none hmany) (.inr hseen), iff_of_true (fun _ _ => nofun) (.inr hseen)⟩
  · have hsome : kind.localBits len ≠ none := fun hnone => hseen (hsuits.none_iff.1 hnone)
    have hneither : ¬(len ≤ UInt32.size ∨ 2 ^ kind.maxBits < seenLength len) := not_or.2 ⟨hlen, hseen⟩
    refine ⟨iff_of_false (fun h => hsome (h.none_iff.2 hmany)) hneither, iff_of_false (fun h => ?_) hneither⟩
    -- one value more than the kind allows has no width, and these have one
    obtain ⟨c, hc⟩ := Option.ne_none_iff_exists'.1 hsome
    obtain ⟨b, hb, -⟩ := h (2 ^ kind.maxBits + 1) hmany c hc
    rw [(localBits_suits (two_pow_maxBits_lt kind)).none_iff.2 (Nat.lt_succ_self _)] at hb
    cases hb

/-- The largest number that a 64-bit length can be is seen to be too large. -/
theorem localBits_suits_iff_largest :
    PaletteKind.blocks.Suits (2 ^ 64 - 1) (PaletteKind.blocks.localBits (2 ^ 64 - 1)) ∧
      ∀ fewer, fewer ≤ 2 ^ 64 - 1 →
        NoWider (PaletteKind.biomes.localBits fewer) (PaletteKind.biomes.localBits (2 ^ 64 - 1)) :=
  ⟨(localBits_suits_iff .blocks _).2.1.2 (.inr (by decide)), (localBits_suits_iff .biomes _).2.2.2 (.inr (by decide))⟩

/-- A palette of `2 ^ 32 + 1` values is taken for one of a single value, and gets no bits at all. -/
theorem not_suits_localBits :
    ¬PaletteKind.blocks.Suits (2 ^ 32 + 1) (PaletteKind.blocks.localBits (2 ^ 32 + 1)) ∧
      ¬NoWider (PaletteKind.blocks.localBits 257) (PaletteKind.blocks.localBits (2 ^ 32 + 1)) := by
  have hzero : PaletteKind.blocks.localBits (2 ^ 32 + 1) = some 0 := by decide
  have hnone : PaletteKind.blocks.localBits 257 = none := by decide
  rw [hzero, hnone]
  constructor
  · intro h
    exact absurd (h.room 0 rfl) (by decide)
  · intro h
    obtain ⟨b, hb, -⟩ := h 0 rfl
    cases hb

end PaletteKind

end VoxelStore
