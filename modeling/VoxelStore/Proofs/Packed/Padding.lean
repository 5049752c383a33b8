import VoxelStore.Proofs.Packed.Layout
/-!
# The bits between and behind packed values

Every bit of the words belongs to one value, or it is padding: it lies above the last whole value of its word,
or behind the last value of all (`isPadding_iff`). The values and the padding together are all that is in the
words (`eq_of_entries`). No padding bit is set in the words that values are packed into (`tight_of_packed`).
-/

namespace VoxelStore

namespace Packed

variable {a b : Packed} {bits i j k w : Nat} {values : Array UInt32}

/-! ## The place of a bit -/

/-- Bit `j` of word `w` is one of the bits of value `i`. -/
def HoldsBit (a : Packed) (i w j : Nat) : Prop :=
  a.wordIndex i = w ∧ i % perWord a.bits * a.bits ≤ j ∧ j < i % perWord a.bits * a.bits + a.bits

instance : Decidable (a.HoldsBit i w j) := inferInstanceAs (Decidable (_ ∧ _ ∧ _))

/-- Bit `j` of word `w`. Behind the words all bits are zero. -/
def bit (a : Packed) (w j : Nat) : Bool := (a.words[w]?.getD 0).toNat.testBit j

/-- Bit `j` of word `w` lies above the values of its word, or behind the last value of all. -/
def IsPadding (a : Packed) (w j : Nat) : Prop :=
  perWord a.bits * a.bits ≤ j ∨ a.len ≤ w * perWord a.bits + j / a.bits

/-- No padding bit is set. -/
def PaddingZero (a : Packed) : Prop := ∀ w j, a.IsPadding w j → a.bit w j = false

/-- There are exactly the words that the values need, and the bits of these words that belong to no value
are zero. -/
structure Tight (a : Packed) : Prop where
  size : a.words.size = wordsNeeded a.len a.bits
  zero : ∀ w (h : w < a.words.size) j, (∀ i, i < a.len → ¬a.HoldsBit i w j) →
    a.words[w].toNat.testBit j = false

/-- A number below `n` is the remainder of whatever it is added to a multiple of `n`. -/
theorem mul_add_div_mod {n k : Nat} (h : k < n) (w : Nat) : (w * n + k) / n = w ∧ (w * n + k) % n = k := by
  have hn : 0 < n := Nat.zero_lt_of_lt h
  constructor
  · rw [Nat.mul_comm, Nat.mul_add_div hn, Nat.div_eq_of_lt h, Nat.add_zero]
  · rw [Nat.mul_comm, Nat.mul_add_mod, Nat.mod_eq_of_lt h]

/-- A bit below the padding of its word belongs to one value only. -/
theorem holdsBit_iff (h : 0 < a.bits) (h64 : a.bits ≤ 64) :
    a.HoldsBit i w j ↔ j < perWord a.bits * a.bits ∧ i = w * perWord a.bits + j / a.bits := by
  have hp := perWord_pos h h64
  unfold HoldsBit wordIndex
  constructor
  · rintro ⟨rfl, hle, hlt⟩
    have hslot : j / a.bits = i % perWord a.bits := by
      apply Nat.div_eq_of_lt_le hle
      rw [Nat.succ_mul]
      exact hlt
    refine ⟨?_, ?_⟩
    · rw [← Nat.div_lt_iff_lt_mul h, hslot]
      exact Nat.mod_lt i hp
    · rw [hslot, Nat.mul_comm, Nat.div_add_mod]
  · rintro ⟨hj, rfl⟩
    have hslot : j / a.bits < perWord a.bits := (Nat.div_lt_iff_lt_mul h).2 hj
    obtain ⟨hword, hmod⟩ := mul_add_div_mod hslot w
    refine ⟨hword, ?_, ?_⟩
    · rw [hmod]
      exact Nat.div_mul_le_self j a.bits
    · rw [hmod]
      exact Nat.lt_div_mul_add h

/-- The bits that belong to no value are the padding. -/
theorem isPadding_iff (h64 : a.bits ≤ 64) : a.IsPadding w j ↔ ∀ i, i < a.len → ¬a.HoldsBit i w j := by
  unfold IsPadding
  rcases Nat.eq_zero_or_pos a.bits with hzero | hpos
  · simp [HoldsBit, hzero]
  · simp only [holdsBit_iff hpos h64]
    constructor
    · rintro hpad i hi ⟨hj, rfl⟩
      omega
    · intro hnone
      by_contra hpad
      rw [not_or, Nat.not_le, Nat.not_le] at hpad
      exact hnone _ hpad.2 ⟨hpad.1, rfl⟩

/-- Binary digit `k` of a value is bit `k` from its lowest one on. -/
theorem testBit_entry (a : Packed) (i k : Nat) :
    (a.entry i).testBit k = (decide (k < a.bits) && a.bit (a.wordIndex i) (i % perWord a.bits * a.bits + k)) := by
  rw [entry, bit, Nat.testBit_mod_two_pow, Nat.testBit_div_two_pow, Nat.add_comm k]

/-- A bit that is no padding is a digit of the value that it belongs to. -/
theorem bit_eq_testBit_entry (h : ¬a.IsPadding w j) :
    w * perWord a.bits + j / a.bits < a.len ∧
      a.bit w j = (a.entry (w * perWord a.bits + j / a.bits)).testBit (j % a.bits) := by
  rw [IsPadding, not_or, Nat.not_le, Nat.not_le] at h
  obtain ⟨hj, hlen⟩ := h
  have hpos : 0 < a.bits := Nat.pos_of_mul_pos_left (Nat.zero_lt_of_lt hj)
  have hslot : j / a.bits < perWord a.bits := (Nat.div_lt_iff_lt_mul hpos).2 hj
  obtain ⟨hword, hmod⟩ := mul_add_div_mod hslot w
  refine ⟨hlen, ?_⟩
  rw [testBit_entry, wordIndex, hword, hmod, Nat.div_add_mod' j a.bits, decide_eq_true (Nat.mod_lt j hpos),
    Bool.true_and]

/-! ## What the words consist of -/

theorem words_eq_of_bit (hsize : b.words.size = a.words.size) (h : ∀ w j, b.bit w j = a.bit w j) :
    b.words = a.words := by
  apply Array.ext hsize
  intro w hb ha
  apply UInt64.toNat_inj.1
  apply Nat.eq_of_testBit_eq
  intro j
  simpa [bit, ha, hb] using h w j

/-- The values and the padding determine the words. -/
theorem eq_of_entries (hlen : b.len = a.len) (hbits : b.bits = a.bits) (hsize : b.words.size = a.words.size)
    (hentry : ∀ i, i < a.len → b.entry i = a.entry i)
    (hpad : ∀ w j, a.IsPadding w j → b.bit w j = a.bit w j) : b = a := by
  have hwords : b.words = a.words := by
    apply words_eq_of_bit hsize
    intro w j
    by_cases hj : a.IsPadding w j
    · exact hpad w j hj
    · have hj' : ¬b.IsPadding w j := by rwa [IsPadding, hlen, hbits]
      obtain ⟨hi, ha⟩ := bit_eq_testBit_entry hj
      obtain ⟨-, hb⟩ := bit_eq_testBit_entry hj'
      rw [hb, ha, hbits, hentry _ hi]
  cases a
  cases b
  simp_all

theorem tight_iff (h64 : a.bits ≤ 64) :
    a.Tight ↔ a.words.size = wordsNeeded a.len a.bits ∧ a.PaddingZero := by
  constructor
  · rintro ⟨hsize, hzero⟩
    refine ⟨hsize, fun w j hpad => ?_⟩
    unfold bit
    by_cases hw : w < a.words.size
    · rw [Array.getElem?_eq_getElem hw]
      exact hzero w hw j ((isPadding_iff h64).1 hpad)
    · rw [Array.getElem?_eq_none (Nat.not_lt.1 hw)]
      exact Nat.zero_testBit j
  · rintro ⟨hsize, hzero⟩
    refine ⟨hsize, fun w hw j hnone => ?_⟩
    have hbit := hzero w j ((isPadding_iff h64).2 hnone)
    rwa [bit, Array.getElem?_eq_getElem hw] at hbit

theorem tight_zero (len : Nat) : (Packed.mk len 0 #[]).Tight where
  size := (wordsNeeded_zero len).symm
  zero w hw := absurd hw (Nat.not_lt_zero w)

/-! ## Packed words -/

/-- The words are those that the values are packed into. -/
theorem tight_of_packed (h64 : a.bits ≤ 64) (hlen : values.size = a.len)
    (hsize : a.words.size = wordsNeeded a.len a.bits)
    (hwords : ∀ w, w < wordsNeeded a.len a.bits → a.words[w]? = some (packedWord a.bits values w)) :
    a.Tight := by
  refine (tight_iff h64).2 ⟨hsize, fun w j hpad => ?_⟩
  unfold bit
  by_cases hw : w < wordsNeeded a.len a.bits
  · have hpos : 0 < a.bits := by
      by_contra hzero
      rw [Nat.eq_zero_of_not_pos hzero, wordsNeeded_zero] at hw
      exact Nat.not_lt_zero w hw
    rw [hwords w hw, Option.getD_some, testBit_packedWord hpos]
    by_cases hslot : j / a.bits < perWord a.bits
    · -- the place of a value, but of one behind the last
      have hj : ¬perWord a.bits * a.bits ≤ j := Nat.not_le.2 ((Nat.div_lt_iff_lt_mul hpos).1 hslot)
      rw [Array.getElem?_eq_none (hlen ▸ hpad.resolve_left hj)]
      exact Bool.and_false _
    · rw [decide_eq_false hslot]
      rfl
  · rw [Array.getElem?_eq_none (hsize ▸ Nat.not_lt.1 hw)]
    exact Nat.zero_testBit j

theorem entry_of_packed (hlen : values.size = a.len) (h64 : a.bits ≤ 64)
    (hwords : ∀ w, w < wordsNeeded a.len a.bits → a.words[w]? = some (packedWord a.bits values w))
    (hi : i < values.size) : a.HasField i ∧ a.entry i = values[i].toNat % 2 ^ a.bits := by
  rcases Nat.eq_zero_or_pos a.bits with hzero | hpos
  · refine ⟨.inl hzero, ?_⟩
    simp [entry, hzero, Nat.mod_one]
  · have hword := hwords _ (div_perWord_lt (perWord_pos hpos h64) (hlen ▸ hi))
    have hfield : a.HasField i := .inr ⟨h64, (Array.getElem?_eq_some_iff.1 hword).1⟩
    refine ⟨hfield, ?_⟩
    have heq := (field_of_hasField hfield).symm.trans (field_of_packedWord hpos h64 hi hword)
    rw [Except.ok.injEq] at heq
    rw [← toNat_ofNat_entry h64, heq, UInt64.toNat_and, UInt32.toNat_toUInt64, toNat_fieldMask h64,
      Nat.and_two_pow_sub_one_eq_mod]

theorem get_of_hasField (h : a.HasField i) (hi : i < a.len) :
    a.get i = .ok (some (UInt64.ofNat (a.entry i))) := by
  rw [get, if_pos hi, field_of_hasField h]
  rfl

/-- A value is read back from the words that it was packed into as its lower bits. -/
theorem get_of_packed (hlen : values.size = a.len) (h64 : a.bits ≤ 64)
    (hwords : ∀ w, w < wordsNeeded a.len a.bits → a.words[w]? = some (packedWord a.bits values w))
    (hi : i < values.size) :
    ∃ x, a.get i = .ok (some x) ∧ x.toNat = values[i].toNat % 2 ^ a.bits := by
  obtain ⟨hfield, hentry⟩ := entry_of_packed hlen h64 hwords hi
  exact ⟨_, get_of_hasField hfield (hlen ▸ hi), by rw [toNat_ofNat_entry h64, hentry]⟩

end Packed

end VoxelStore
