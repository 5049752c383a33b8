import VoxelStore.Proofs.Packed.Fields
/-!
# Packed words of any origin

Words from outside may hold any bits, also between and behind the values. `entry` is the number in the place
of a value. It is read wherever the value has a word (`field_of_hasField`) and nothing is read elsewhere
(`field_of_not_hasField`); `complete_iff` counts the words with which every value has one.
-/

namespace VoxelStore

namespace Packed

variable {a : Packed} {bits i len : Nat} {words : Array UInt64}

/-- The number in the place of value `i`: as many binary digits of its word as the width says, behind those
of the values before it. -/
def entry (a : Packed) (i : Nat) : Nat :=
  (a.words[a.wordIndex i]?.getD 0).toNat / 2 ^ (i % perWord a.bits * a.bits) % 2 ^ a.bits

/-- Value `i` needs no word, or it fits one and has one. -/
def HasField (a : Packed) (i : Nat) : Prop := a.bits = 0 ∨ a.bits ≤ 64 ∧ a.wordIndex i < a.words.size

/-- There are enough words for all values. More of them do no harm. -/
def Complete (a : Packed) : Prop := a.len = 0 ∨ a.bits ≤ 64 ∧ wordsNeeded a.len a.bits ≤ a.words.size

instance (a : Packed) : Decidable a.Complete := inferInstanceAs (Decidable (_ ∨ _ ∧ _))

theorem toNat_ofNat_entry (h : a.bits ≤ 64) : (UInt64.ofNat (a.entry i)).toNat = a.entry i := by
  have hlt : a.entry i < 2 ^ a.bits := Nat.mod_lt _ (Nat.two_pow_pos a.bits)
  have hle : 2 ^ a.bits ≤ 2 ^ 64 := Nat.pow_le_pow_right (by decide) h
  exact UInt64.toNat_ofNat_of_lt' (Nat.lt_of_lt_of_le hlt hle)

theorem field_of_hasField (h : a.HasField i) : a.field i = .ok (UInt64.ofNat (a.entry i)) := by
  rcases Nat.eq_zero_or_pos a.bits with hzero | hpos
  · have hentry : a.entry i = 0 := by rw [entry, hzero, Nat.pow_zero, Nat.mod_one]
    rw [field, if_pos hzero, hentry]
    rfl
  · obtain ⟨h64, hword⟩ := h.resolve_left (Nat.ne_of_gt hpos)
    rw [field, if_neg (Nat.ne_of_gt hpos), if_neg (Nat.not_lt.2 h64), Array.getElem?_eq_getElem hword]
    refine congrArg Except.ok (UInt64.toNat_inj.1 ?_)
    have hshift := mod_perWord_mul_lt hpos h64 i
    rw [toNat_ofNat_entry h64, entry, Array.getElem?_eq_getElem hword, Option.getD_some, UInt64.toNat_and,
      UInt64.toNat_shiftRight, toNat_fieldMask h64, toNat_shift hpos h64, Nat.mod_eq_of_lt hshift,
      Nat.shiftRight_eq_div_pow, Nat.and_two_pow_sub_one_eq_mod]

theorem field_of_not_hasField (h : ¬a.HasField i) : ∃ f, a.field i = .error f := by
  rw [HasField, not_or, not_and, Nat.not_lt] at h
  rw [field, if_neg h.1]
  split
  · exact ⟨_, rfl⟩
  · next h64 =>
    rw [Array.getElem?_eq_none (h.2 (Nat.not_lt.1 h64))]
    exact ⟨_, rfl⟩

theorem complete_iff : a.Complete ↔ ∀ i, i < a.len → a.HasField i := by
  rcases Nat.eq_zero_or_pos a.len with hlen | hlen
  · simp [Complete, hlen]
  rcases Nat.eq_zero_or_pos a.bits with hbits | hbits
  · simp [Complete, HasField, hbits, wordsNeeded_zero]
  rw [Complete, or_iff_right (Nat.ne_of_gt hlen)]
  constructor
  · rintro ⟨h64, hwords⟩ i hi
    exact .inr ⟨h64, Nat.lt_of_lt_of_le (div_perWord_lt (perWord_pos hbits h64) hi) hwords⟩
  · -- the last value is in the last word
    intro h
    obtain ⟨h64, hword⟩ := (h (a.len - 1) (by omega)).resolve_left (Nat.ne_of_gt hbits)
    have hp := perWord_pos hbits h64
    have hneeded : wordsNeeded a.len a.bits = (a.len - 1) / perWord a.bits + 1 := by
      rw [← Nat.add_div_right _ hp, wordsNeeded]
      congr 1
      omega
    exact ⟨h64, hneeded ▸ hword⟩

/-- The words that the layout asks for are enough. -/
theorem complete_of_size (h : a.bits ≤ 64) (hsize : a.words.size = wordsNeeded a.len a.bits) : a.Complete :=
  .inr ⟨h, Nat.le_of_eq hsize.symm⟩

/-- Words are taken from outside exactly if their width is supported and there are as many as the layout needs. -/
theorem ofWords_eq_ok_iff :
    ofWords len bits words = .ok a ↔
      (bits ≤ 32 ∧ words.size = wordsNeeded len bits) ∧ a = ⟨len, bits, words⟩ := by
  unfold ofWords
  split
  · next h32 => simp [Nat.not_le.2 h32]
  · next h32 =>
    split
    · next hsize => simp [hsize]
    · next hsize => simp_all [eq_comm]

end Packed

end VoxelStore
