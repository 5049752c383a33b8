import Mathlib
import VoxelStore.Packed
/-!
# The bits of packed values

`testBit_packedWord` says for every bit of a packed word which bit of which value it is; the bits above
the last whole value are zero. From it a value that was packed is read back as its lower bits
(`field_of_packedWord`), hence as it is if it fits its width (`field_of_packed`); `packInto_ok` puts such
words in front of any scratch space.
-/

namespace VoxelStore

namespace Packed

variable {bits : Nat}

/-! ## Layout -/

theorem perWord_mul_le (bits : Nat) : perWord bits * bits ≤ 64 := Nat.div_mul_le_self 64 bits

theorem perWord_pos (h : 0 < bits) (h64 : bits ≤ 64) : 0 < perWord bits := Nat.div_pos h64 h

/-- The word of a value is among those that the layout needs. -/
theorem div_perWord_lt {i len : Nat} (h : 0 < perWord bits) (hi : i < len) :
    i / perWord bits < wordsNeeded len bits := by
  unfold wordsNeeded
  rw [Nat.div_lt_iff_lt_mul h, Nat.lt_iff_add_one_le]
  have hmod := Nat.div_add_mod (len + perWord bits - 1) (perWord bits)
  have hlt := Nat.mod_lt (len + perWord bits - 1) h
  rw [Nat.mul_comm] at hmod
  omega

theorem wordsNeeded_zero (len : Nat) : wordsNeeded len 0 = 0 := by simp [wordsNeeded, perWord]

theorem toNat_fieldMask (h : bits ≤ 64) : (fieldMask bits).toNat = 2 ^ bits - 1 := by
  have hle : 2 ^ bits ≤ 2 ^ 64 := Nat.pow_le_pow_right (by decide) h
  have hpos := Nat.two_pow_pos bits
  rw [fieldMask, Nat.one_shiftLeft, UInt64.toNat_ofNat_of_lt']
  simp only [UInt64.size]
  omega

/-- The lowest bit of a value lies inside of the word. -/
theorem mod_perWord_mul_lt (h : 0 < bits) (h64 : bits ≤ 64) (i : Nat) : i % perWord bits * bits < 64 := by
  have hlt : i % perWord bits + 1 ≤ perWord bits := Nat.mod_lt i (perWord_pos h h64)
  have hle := Nat.le_trans (Nat.mul_le_mul_right bits hlt) (perWord_mul_le bits)
  rw [Nat.succ_mul] at hle
  omega

theorem toNat_shift {a : Packed} (h : 0 < a.bits) (h64 : a.bits ≤ 64) (i : Nat) :
    (a.shift i).toNat = i % perWord a.bits * a.bits :=
  UInt64.toNat_ofNat_of_lt' (Nat.lt_trans (mod_perWord_mul_lt h h64 i) (by decide))

/-! ## Bits of a word -/

/-- Bit `j` of a word is bit `j % bits` of value `j / bits` of its list. -/
theorem testBit_packWord (h : 0 < bits) {vs : List UInt32} (hvs : vs.length * bits ≤ 64) (j : Nat) :
    (packWord bits vs).toNat.testBit j = (vs[j / bits]?).any fun v => v.toNat.testBit (j % bits) := by
  induction vs generalizing j with
  | nil => simp [packWord]
  | cons v vs ih =>
    rw [List.length_cons, Nat.succ_mul] at hvs
    have hrest := ih (by omega)
    rw [packWord, UInt64.toNat_or, UInt64.toNat_and, UInt32.toNat_toUInt64, toNat_fieldMask (by omega),
      UInt64.toNat_shiftLeft, Nat.testBit_or, Nat.testBit_and, Nat.testBit_two_pow_sub_one,
      Nat.testBit_mod_two_pow]
    cases vs with
    | nil =>
      -- the word is full after a value of 64 bits, so the shift by 64 may wrap
      have hzero : (packWord bits []).toNat = 0 := rfl
      rw [hzero, Nat.zero_shiftLeft, Nat.zero_testBit]
      by_cases hj : j < bits
      · simp [hj, Nat.div_eq_of_lt hj, Nat.mod_eq_of_lt hj]
      · have hdiv : 0 < j / bits := Nat.div_pos (Nat.le_of_not_lt hj) h
        simp [hj, Nat.ne_of_gt hdiv]
    | cons u us =>
      rw [List.length_cons, Nat.succ_mul] at hvs
      have hshift : (UInt64.ofNat bits).toNat % 64 = bits := by
        rw [UInt64.toNat_ofNat_of_lt' (by simp only [UInt64.size]; omega), Nat.mod_eq_of_lt (by omega)]
      rw [hshift, Nat.testBit_shiftLeft]
      by_cases hj : j < bits
      · simp [hj, Nat.not_le.2 hj, Nat.div_eq_of_lt hj, Nat.mod_eq_of_lt hj]
      · have hle := Nat.le_of_not_lt hj
        have hdiv : j / bits = (j - bits) / bits + 1 := by
          rw [← Nat.add_div_right _ h, Nat.sub_add_cancel hle]
        have hmod : (j - bits) % bits = j % bits := (Nat.mod_eq_sub_mod hle).symm
        rw [hrest, hdiv, List.getElem?_cons_succ, hmod]
        by_cases h64 : j < 64
        · simp [hj, hle, h64]
        · -- beyond the word there is no value, since all of them fit into it
          have hnone : (u :: us)[(j - bits) / bits]? = none := by
            rw [List.getElem?_eq_none_iff, Nat.le_div_iff_mul_le h, List.length_cons, Nat.succ_mul]
            omega
          simp [hj, h64, hnone]

/-- Bit `j` of word `w` belongs to value `w * perWord bits + j / bits`, if the word holds that many. -/
theorem testBit_packedWord (h : 0 < bits) (values : Array UInt32) (w j : Nat) :
    (packedWord bits values w).toNat.testBit j =
      (decide (j / bits < perWord bits) &&
        (values[w * perWord bits + j / bits]?).any fun v => v.toNat.testBit (j % bits)) := by
  have hlen : (values.extract (w * perWord bits) (w * perWord bits + perWord bits)).toList.length ≤
      perWord bits := by
    rw [Array.length_toList, Array.size_extract]
    omega
  rw [packedWord, testBit_packWord h (Nat.le_trans (Nat.mul_le_mul_right bits hlen) (perWord_mul_le bits)),
    Array.getElem?_toList, Array.getElem?_extract]
  by_cases hj : j / bits < perWord bits
  · rw [decide_eq_true hj, Bool.true_and]
    split
    · rfl
    · rw [Array.getElem?_eq_none (by omega)]
  · rw [if_neg (by omega), decide_eq_false hj]
    rfl

/-! ## Reading back -/

/-- A value is read back as its lower bits from the word that it was packed into. -/
theorem field_of_packedWord {a : Packed} {values : Array UInt32} {i : Nat} (h : 0 < a.bits)
    (h64 : a.bits ≤ 64) (hi : i < values.size)
    (hword : a.words[a.wordIndex i]? = some (packedWord a.bits values (a.wordIndex i))) :
    a.field i = .ok (values[i].toUInt64 &&& fieldMask a.bits) := by
  rw [field, if_neg (by omega), if_neg (by omega), hword]
  -- bit by bit: below the width they are the bits of the value, above it the mask clears them
  refine congrArg Except.ok (UInt64.toNat_inj.1 (Nat.eq_of_testBit_eq fun j => ?_))
  have hp := perWord_pos h h64
  have hslot : i % perWord a.bits < perWord a.bits := Nat.mod_lt i hp
  have hshift := mod_perWord_mul_lt h h64 i
  simp only [UInt64.toNat_and, UInt64.toNat_shiftRight, UInt32.toNat_toUInt64, toNat_fieldMask h64,
    toNat_shift h h64, Nat.mod_eq_of_lt hshift, Nat.testBit_and, Nat.testBit_two_pow_sub_one,
    Nat.testBit_shiftRight, testBit_packedWord h]
  by_cases hj : j < a.bits
  · have hdiv : (i % perWord a.bits * a.bits + j) / a.bits = i % perWord a.bits := by
      rw [Nat.mul_comm, Nat.mul_add_div h, Nat.div_eq_of_lt hj, Nat.add_zero]
    have hmod : (i % perWord a.bits * a.bits + j) % a.bits = j := by
      rw [Nat.mul_comm, Nat.mul_add_mod, Nat.mod_eq_of_lt hj]
    have hindex : a.wordIndex i * perWord a.bits + i % perWord a.bits = i := by
      rw [wordIndex, Nat.mul_comm]
      exact Nat.div_add_mod i (perWord a.bits)
    simp [hdiv, hmod, hindex, hslot, hi]
  · simp [hj]

/-- A value that fits its width is read back as it is. At width zero only zero fits, and no word is read. -/
theorem field_of_packed {a : Packed} {values : Array UInt32} {i : Nat} (h64 : a.bits ≤ 64)
    (hi : i < values.size) (hfit : values[i].toNat < 2 ^ a.bits)
    (hwords : ∀ w, w < wordsNeeded values.size a.bits → a.words[w]? = some (packedWord a.bits values w)) :
    a.field i = .ok values[i].toUInt64 := by
  rcases Nat.eq_zero_or_pos a.bits with hzero | hpos
  · rw [hzero, Nat.pow_zero, Nat.lt_one_iff] at hfit
    rw [field, if_pos hzero, UInt32.toNat_inj.1 (hfit.trans UInt32.toNat_zero.symm)]
    rfl
  · rw [field_of_packedWord hpos h64 hi (hwords _ (div_perWord_lt (perWord_pos hpos h64) hi))]
    refine congrArg Except.ok (UInt64.toNat_inj.1 ?_)
    rw [UInt64.toNat_and, UInt32.toNat_toUInt64, toNat_fieldMask h64, Nat.and_two_pow_sub_one_eq_mod,
      Nat.mod_eq_of_lt hfit]

/-- Packing into enough scratch space succeeds: the packed words stand in front, and the scratch space
keeps its size. -/
theorem packInto_ok {values : Array UInt32} {scratch : Array UInt64}
    (h : wordsNeeded values.size bits ≤ scratch.size) :
    ∃ words, packInto bits values scratch = .ok (wordsNeeded values.size bits, words) ∧
      words.size = scratch.size ∧
      ∀ w, w < wordsNeeded values.size bits → words[w]? = some (packedWord bits values w) := by
  refine ⟨_, by rw [packInto, if_neg (by omega)], Array.size_mapIdx, fun w hw => ?_⟩
  have hsize : w < scratch.size := by omega
  rw [Array.getElem?_mapIdx, Array.getElem?_eq_getElem hsize, Option.map_some, if_pos hw]

/-- Whatever is packed into scratch space stands in front of it. -/
theorem packInto_eq_ok {values : Array UInt32} {scratch words : Array UInt64} {used : Nat}
    (h : packInto bits values scratch = .ok (used, words)) :
    used = wordsNeeded values.size bits ∧ used ≤ scratch.size ∧ words.size = scratch.size ∧
      ∀ w, w < used → words[w]? = some (packedWord bits values w) := by
  have hroom : wordsNeeded values.size bits ≤ scratch.size := by
    by_contra hsmall
    rw [packInto, if_pos (Nat.lt_of_not_le hsmall)] at h
    cases h
  obtain ⟨words', hpack, hsize, hword⟩ := packInto_ok hroom
  cases hpack.symm.trans h
  exact ⟨rfl, hroom, hsize, hword⟩

/-- What stands in front of the scratch space is the packed form of the values, and as long as they need. -/
theorem extract_of_packInto {values : Array UInt32} {scratch words : Array UInt64} {used : Nat}
    (h : packInto bits values scratch = .ok (used, words)) :
    (words.extract 0 used).size = wordsNeeded values.size bits ∧
      ∀ w, w < wordsNeeded values.size bits → (words.extract 0 used)[w]? = some (packedWord bits values w) := by
  obtain ⟨hused, hroom, hsize, hwords⟩ := packInto_eq_ok h
  rw [← hused]
  constructor
  · rw [Array.size_extract, hsize, Nat.min_eq_left hroom, Nat.sub_zero]
  · intro w hw
    rw [← hwords w hw, Array.getElem?_extract, hsize, Nat.min_eq_left hroom, Nat.sub_zero, if_pos hw, Nat.zero_add]

end Packed

end VoxelStore
