import VoxelStore.Proofs.Packed.Canonical
import VoxelStore.Proofs.Run
/-!
# Single values written into packed words

`set` clears the bits of a value and puts the new ones in their place. `Replaced` says what this does to every
bit of the words: no bit of another value and no padding bit changes. From it `setAll_built` derives that any
sequence of such writes leaves the words that packing the last written values at once gives.
-/

namespace VoxelStore

namespace Packed

variable {a b : Packed} {bits i j k w : Nat} {v : UInt64}

/-! ## One word -/

theorem testBit_not (word : UInt64) (j : Nat) :
    (~~~word).toNat.testBit j = (decide (j < 64) && !word.toNat.testBit j) := by
  show (~~~word).toBitVec.getLsbD j = (decide (j < 64) && !word.toBitVec.getLsbD j)
  rw [UInt64.toBitVec_not, BitVec.getLsbD_not]

theorem testBit_shiftLeft (word s : UInt64) (hs : s.toNat < 64) (j : Nat) :
    (word <<< s).toNat.testBit j =
      (decide (j < 64) && (decide (s.toNat ≤ j) && word.toNat.testBit (j - s.toNat))) := by
  rw [UInt64.toNat_shiftLeft, Nat.mod_eq_of_lt hs, Nat.testBit_mod_two_pow, Nat.testBit_shiftLeft]

/-- The bits from the shift on are those of the value, as many as the width says, and the others stay. -/
theorem testBit_splice (word : UInt64) {s : UInt64} (hs : s.toNat < 64) (hroom : s.toNat + bits ≤ 64)
    (hv : v.toNat < 2 ^ bits) (j : Nat) :
    ((word &&& ~~~(fieldMask bits <<< s)) ||| (v <<< s)).toNat.testBit j =
      if s.toNat ≤ j ∧ j < s.toNat + bits then v.toNat.testBit (j - s.toNat) else word.toNat.testBit j := by
  have h64 : bits ≤ 64 := by omega
  rw [UInt64.toNat_or, UInt64.toNat_and, Nat.testBit_or, Nat.testBit_and, testBit_not, testBit_shiftLeft _ _ hs,
    testBit_shiftLeft _ _ hs, toNat_fieldMask h64, Nat.testBit_two_pow_sub_one]
  by_cases hin : s.toNat ≤ j ∧ j < s.toNat + bits
  · have hj : j < 64 := by omega
    have hmask : j - s.toNat < bits := by omega
    simp [hin, hj, hmask]
  · rw [if_neg hin]
    by_cases hj : j < 64
    · by_cases hle : s.toNat ≤ j
      · -- above the value, where it has no digits
        have hmask : ¬j - s.toNat < bits := by omega
        have hbit : v.toNat.testBit (j - s.toNat) = false :=
          Nat.testBit_lt_two_pow (Nat.lt_of_lt_of_le hv (Nat.pow_le_pow_right (by decide) (Nat.not_lt.1 hmask)))
        simp [hj, hle, hmask, hbit]
      · simp [hj, hle]
    · have hword : word.toNat.testBit j = false :=
        Nat.testBit_lt_two_pow (Nat.lt_of_lt_of_le word.toNat_lt (Nat.pow_le_pow_right (by decide) (Nat.not_lt.1 hj)))
      simp [hj, hword]

/-! ## Layouts -/

/-- The words are laid out in the same way. -/
structure SameLayout (a b : Packed) : Prop where
  len : b.len = a.len
  bits : b.bits = a.bits
  size : b.words.size = a.words.size

theorem SameLayout.refl (a : Packed) : a.SameLayout a := ⟨rfl, rfl, rfl⟩

theorem SameLayout.trans {c : Packed} (h : a.SameLayout b) (h' : b.SameLayout c) : a.SameLayout c :=
  ⟨h'.len.trans h.len, h'.bits.trans h.bits, h'.size.trans h.size⟩

theorem SameLayout.isPadding_iff (h : a.SameLayout b) : b.IsPadding w j ↔ a.IsPadding w j := by
  rw [IsPadding, IsPadding, h.len, h.bits]

/-- The layout has a supported width, and there are as many words as it asks for. -/
structure Sound (a : Packed) : Prop where
  bits : a.bits ≤ 32
  size : a.words.size = wordsNeeded a.len a.bits

theorem Sound.bits_le (h : a.Sound) : a.bits ≤ 64 := Nat.le_trans h.bits (by decide)

theorem Sound.hasField (h : a.Sound) (hi : i < a.len) : a.HasField i :=
  complete_iff.1 (complete_of_size h.bits_le h.size) i hi

theorem SameLayout.sound (h : a.SameLayout b) (ha : a.Sound) : b.Sound where
  bits := h.bits ▸ ha.bits
  size := by rw [h.size, h.len, h.bits, ha.size]

/-! ## One value -/

/-- The bits of value `i` were replaced by those of `v`, and no others. -/
structure Replaced (a : Packed) (i : Nat) (v : UInt64) (b : Packed) : Prop extends SameLayout a b where
  bit : ∀ w j, b.bit w j =
    if a.HoldsBit i w j then v.toNat.testBit (j - i % perWord a.bits * a.bits) else a.bit w j

/-- A value that fits is put in its place, if there is a word for it. -/
theorem set_ok (hi : i < a.len) (hv : v.toNat < 2 ^ a.bits) (hf : a.HasField i) :
    ∃ b, a.set i v = .ok b ∧ a.Replaced i v b := by
  rcases Nat.eq_zero_or_pos a.bits with hzero | hpos
  · have hmask : ¬fieldMask 0 < v := by
      rw [hzero] at hv
      rw [UInt64.lt_iff_toNat_lt, toNat_fieldMask (by decide)]
      omega
    refine ⟨a, ?_, .refl a, fun w j => ?_⟩
    · simp [set, hzero, hmask, Nat.not_le.2 hi]
    · have hnone : ¬a.HoldsBit i w j := by
        rw [HoldsBit, hzero]
        omega
      rw [if_neg hnone]
  · obtain ⟨h64, hword⟩ := hf.resolve_left (Nat.ne_of_gt hpos)
    have hmask : ¬fieldMask a.bits < v := by
      rw [UInt64.lt_iff_toNat_lt, toNat_fieldMask h64]
      omega
    have hslot : i % perWord a.bits + 1 ≤ perWord a.bits := Nat.mod_lt i (perWord_pos hpos h64)
    have hroom : i % perWord a.bits * a.bits + a.bits ≤ 64 := by
      rw [← Nat.succ_mul]
      exact Nat.le_trans (Nat.mul_le_mul_right a.bits hslot) (perWord_mul_le a.bits)
    have hshift := toNat_shift hpos h64 i
    have hlt : (a.shift i).toNat < 64 := by omega
    have hend : (a.shift i).toNat + a.bits ≤ 64 := by omega
    have hsplice := testBit_splice a.words[a.wordIndex i] hlt hend hv
    rw [hshift] at hsplice
    -- the one word that is written
    generalize hnew : (a.words[a.wordIndex i] &&& ~~~(fieldMask a.bits <<< a.shift i)) ||| (v <<< a.shift i) = word
      at hsplice
    refine ⟨{ a with words := a.words.set! (a.wordIndex i) word }, ?_, ⟨rfl, rfl, by simp⟩, fun w j => ?_⟩
    · rw [set, if_neg (Nat.not_le.2 hi), if_neg (Nat.not_lt.2 h64), if_neg hmask, if_neg (Nat.ne_of_gt hpos),
        Array.getElem?_eq_getElem hword, ← hnew]
    · unfold Packed.bit HoldsBit
      by_cases hw : a.wordIndex i = w
      · subst hw
        simp [hword, hsplice j]
      · simp [hw]

theorem Replaced.padding (h : a.Replaced i v b) (h64 : a.bits ≤ 64) (hi : i < a.len) (hpad : a.IsPadding w j) :
    b.bit w j = a.bit w j := by
  rw [h.bit, if_neg ((Packed.isPadding_iff h64).1 hpad i hi)]

/-- The value is there now, and the other values are what they were. -/
theorem Replaced.entry (h : a.Replaced i v b) (h64 : a.bits ≤ 64) (hv : v.toNat < 2 ^ a.bits) (k : Nat) :
    b.entry k = if k = i then v.toNat else a.entry k := by
  apply Nat.eq_of_testBit_eq
  intro d
  rw [testBit_entry, h.bits, h.bit, wordIndex, h.bits]
  by_cases hd : d < a.bits
  · have hown : a.HoldsBit k (k / perWord a.bits) (k % perWord a.bits * a.bits + d) :=
      ⟨rfl, Nat.le_add_right _ _, Nat.add_lt_add_left hd _⟩
    have hpos : 0 < a.bits := Nat.zero_lt_of_lt hd
    by_cases hki : k = i
    · subst hki
      simp [hown, hd]
    · -- a bit belongs to one value only
      have hother : ¬a.HoldsBit i (k / perWord a.bits) (k % perWord a.bits * a.bits + d) := fun hsame =>
        hki (((holdsBit_iff hpos h64).1 hown).2.trans ((holdsBit_iff hpos h64).1 hsame).2.symm)
      rw [if_neg hother, if_neg hki, testBit_entry, wordIndex]
  · have hle : 2 ^ a.bits ≤ 2 ^ d := Nat.pow_le_pow_right (by decide) (Nat.not_lt.1 hd)
    by_cases hki : k = i
    · simp [hki, hd, Nat.testBit_lt_two_pow (Nat.lt_of_lt_of_le hv hle)]
    · simp [hki, hd, testBit_entry]

/-- Reading finds the value that was written, and the other values as they were. -/
theorem Sound.get_replaced (h : a.Sound) (hi : i < a.len) (hv : v.toNat < 2 ^ a.bits) (hb : a.Replaced i v b) :
    b.get i = .ok (some v) ∧ ∀ k, k ≠ i → b.get k = a.get k := by
  have hentry := hb.entry h.bits_le hv
  have hget : ∀ k, k < a.len → b.get k = .ok (some (UInt64.ofNat (b.entry k))) := by
    intro k hk
    rw [← hb.len] at hk
    exact get_of_hasField ((hb.sound h).hasField hk) hk
  constructor
  · rw [hget i hi, hentry, if_pos rfl, UInt64.ofNat_toNat]
  · intro k hk
    by_cases hlen : k < a.len
    · rw [hget k hlen, hentry, if_neg hk, get_of_hasField (h.hasField hlen) hlen]
    · rw [get, get, hb.len, if_neg hlen, if_neg hlen]

/-! ## Any number of values -/

/-- The value has a place, and fits the width. -/
def Accepts (a : Packed) (write : Nat × UInt64) : Prop := write.1 < a.len ∧ write.2.toNat < 2 ^ a.bits

/-- Writes values one after the other. -/
def setAll (a : Packed) (writes : List (Nat × UInt64)) : Except Fault Packed :=
  writes.foldlM (fun a write => a.set write.1 write.2) a

/-- The value that was written last in place `i`, if any was. -/
def lastWrite (writes : List (Nat × UInt64)) (i : Nat) : Option UInt64 := writes.reverse.lookup i

theorem lastWrite_concat (writes : List (Nat × UInt64)) (k : Nat) (v : UInt64) (i : Nat) :
    lastWrite (writes ++ [(k, v)]) i = if i = k then some v else lastWrite writes i := by
  rw [lastWrite, List.reverse_append, List.reverse_singleton, List.singleton_append, List.lookup_cons]
  by_cases hik : i = k
  · simp [hik]
  · rw [if_neg hik, beq_eq_false_iff_ne.2 hik, lastWrite]

/-- The last written values are in their places; all else is as before. -/
structure Written (a : Packed) (writes : List (Nat × UInt64)) (b : Packed) : Prop extends SameLayout a b where
  entry : ∀ i, b.entry i = (lastWrite writes i).elim (a.entry i) UInt64.toNat
  padding : ∀ w j, a.IsPadding w j → b.bit w j = a.bit w j

/-- Writes that are accepted do not fault, and the last one in each place counts. -/
theorem setAll_ok {writes : List (Nat × UInt64)} (h : a.Sound) (hw : ∀ write ∈ writes, a.Accepts write) :
    ∃ b, a.setAll writes = .ok b ∧ a.Written writes b := by
  induction writes using List.reverseRecOn with
  | nil => exact ⟨a, rfl, .refl a, fun _ => rfl, fun _ _ _ => rfl⟩
  | append_singleton writes write ih =>
    obtain ⟨k, v⟩ := write
    obtain ⟨b, hb, hwritten⟩ := ih fun x hx => hw x (List.mem_append_left _ hx)
    obtain ⟨hk, hv⟩ := hw (k, v) (List.mem_append_right _ List.mem_cons_self)
    have hsound := hwritten.sound h
    rw [← hwritten.len] at hk
    rw [← hwritten.bits] at hv
    obtain ⟨c, hc, hreplaced⟩ := set_ok hk hv (hsound.hasField hk)
    refine ⟨c, ?_, hwritten.toSameLayout.trans hreplaced.toSameLayout, fun i => ?_, fun w j hpad => ?_⟩
    · rw [setAll, List.foldlM_append]
      refine except_bind_eq_ok.2 ⟨b, hb, ?_⟩
      simp [hc]
    · rw [hreplaced.entry hsound.bits_le hv, lastWrite_concat, hwritten.entry]
      split <;> rfl
    · rw [hreplaced.padding hsound.bits_le hk (hwritten.isPadding_iff.2 hpad), hwritten.padding w j hpad]

/-- The packed values that can be made: of zeros, of values, or of words from outside. -/
inductive Built : Packed → Prop
  | zeros {len bits : Nat} {a : Packed} : zeros len bits = .ok a → Built a
  | ofValues {bits : Nat} {values : Array UInt32} {a : Packed} : ofValues bits values = .ok a → Built a
  | ofWords {len bits : Nat} {words : Array UInt64} {a : Packed} : ofWords len bits words = .ok a → Built a

theorem zeros_eq_ok {len : Nat} (h : zeros len bits = .ok a) :
    bits ≤ 32 ∧ a = ⟨len, bits, Array.replicate (wordsNeeded len bits) 0⟩ := by
  unfold zeros at h
  split at h
  · cases h
  · next h32 =>
    obtain ⟨-, -, h⟩ := except_bind_eq_ok.1 h
    cases h
    exact ⟨Nat.not_lt.1 h32, rfl⟩

theorem bit_zeros (len bits w j : Nat) :
    (Packed.mk len bits (Array.replicate (wordsNeeded len bits) 0)).bit w j = false := by
  unfold bit
  rw [Array.getElem?_replicate]
  split <;> exact Nat.zero_testBit j

theorem Built.sound (h : a.Built) : a.Sound := by
  cases h with
  | zeros h =>
    obtain ⟨h32, rfl⟩ := zeros_eq_ok h
    exact ⟨h32, Array.size_replicate⟩
  | ofValues h =>
    obtain ⟨h32, hlen, rfl, hsize, -⟩ := ofValues_eq_ok h
    exact ⟨h32, hlen ▸ hsize⟩
  | ofWords h =>
    obtain ⟨⟨h32, hsize⟩, rfl⟩ := ofWords_eq_ok_iff.1 h
    exact ⟨h32, hsize⟩

/-! ## Writing and packing -/

variable {writes : List (Nat × UInt64)}

theorem Written.get (h : a.Written writes b) (ha : a.Sound) (hi : i < a.len) :
    b.get i = (lastWrite writes i).elim (a.get i) fun v => .ok (some v) := by
  have hi' : i < b.len := h.len ▸ hi
  rw [get_of_hasField ((h.sound ha).hasField hi') hi', h.entry]
  cases lastWrite writes i with
  | none => exact (get_of_hasField (ha.hasField hi) hi).symm
  | some v => simp

/-- Zeros with values written over them are the packed form of the last values. -/
theorem Written.ofValues {len : Nat} (h : a.Written writes b) (ha : zeros len bits = .ok a) :
    Packed.ofValues bits (Array.ofFn fun i : Fin len => ((lastWrite writes i).getD 0).toUInt32) = .ok b := by
  have hsound := h.sound (Built.zeros ha).sound
  obtain ⟨-, rfl⟩ := zeros_eq_ok ha
  have hbits : b.bits = bits := h.bits
  rw [← hbits]
  refine (ofValues_read_iff hsound.bits hsound.size ?_ fun i hi => ?_).2 fun w j hpad => ?_
  · rw [Array.size_ofFn, h.len]
  · have hzero : Packed.entry ⟨len, bits, Array.replicate (wordsNeeded len bits) 0⟩ i = 0 := by
      apply Nat.eq_of_testBit_eq
      intro d
      rw [testBit_entry, bit_zeros, Bool.and_false, Nat.zero_testBit]
    have hentry := h.entry i
    rw [hzero] at hentry
    rw [Array.getElem_ofFn, ← toNat_toUInt32_entry hsound.bits i, hentry]
    cases lastWrite writes i <;> simp
  · rw [h.padding w j (h.isPadding_iff.1 hpad), bit_zeros]

/-- Any sequence of writes with places and values that the layout accepts goes through. At every point of it, one
more such write is found where it was put, and changes no other value and no padding bit. In the end the last value
written in each place is there, and what was there before where nothing was written. Over zeros this gives the
words that packing these values at once gives, whatever the order and the number of the writes. -/
theorem setAll_built (ha : a.Built) (hw : ∀ write ∈ writes, a.Accepts write) :
    ∃ b, a.setAll writes = .ok b ∧ b.len = a.len ∧ b.bits = a.bits ∧
      (∀ i v, b.Accepts (i, v) → ∃ c, b.set i v = .ok c ∧ c.get i = .ok (some v) ∧
        (∀ k, k ≠ i → c.get k = b.get k) ∧ ∀ w j, b.IsPadding w j → c.bit w j = b.bit w j) ∧
      (∀ i, i < a.len → b.get i = (lastWrite writes i).elim (a.get i) fun v => .ok (some v)) ∧
      (∀ w j, a.IsPadding w j → b.bit w j = a.bit w j) ∧
      ∀ len bits, zeros len bits = .ok a →
        Packed.ofValues bits (Array.ofFn fun i : Fin len => ((lastWrite writes i).getD 0).toUInt32) = .ok b := by
  obtain ⟨b, hb, hwritten⟩ := setAll_ok ha.sound hw
  have hsound := hwritten.sound ha.sound
  refine ⟨b, hb, hwritten.len, hwritten.bits, ?_, fun i hi => hwritten.get ha.sound hi, hwritten.padding,
    fun len bits hzeros => hwritten.ofValues hzeros⟩
  rintro i v ⟨hi, hv⟩
  obtain ⟨c, hc, hreplaced⟩ := set_ok hi hv (hsound.hasField hi)
  obtain ⟨hget, hothers⟩ := hsound.get_replaced hi hv hreplaced
  exact ⟨c, hc, hget, hothers, fun w j hpad => hreplaced.padding hsound.bits_le hi hpad⟩

/-- A value of seven bits that was written twice, and its neighbours on both sides of the end of a word. -/
theorem setAll_built_overwritten :
    ∃ a b, zeros 12 7 = .ok a ∧ a.setAll [(0, 127), (8, 1), (9, 100), (0, 3)] = .ok b ∧
      b.get 0 = .ok (some 3) ∧ b.get 1 = .ok (some 0) ∧ b.get 8 = .ok (some 1) ∧ b.get 9 = .ok (some 100) ∧
      Packed.ofValues 7 (#[3, 0, 0, 0, 0, 0, 0, 0, 1, 100, 0, 0]) = .ok b := by
  obtain ⟨a, ha⟩ : ∃ a, zeros 12 7 = .ok a := ⟨_, rfl⟩
  have haccepts : ∀ write ∈ [(0, 127), (8, 1), (9, 100), (0, 3)], a.Accepts write := by
    obtain ⟨-, rfl⟩ := zeros_eq_ok ha
    intro write hwrite
    fin_cases hwrite <;> exact ⟨by decide, by decide⟩
  obtain ⟨b, hb, -, -, -, hget, -, hvalues⟩ := setAll_built (.zeros ha) haccepts
  -- the last values, one for each place
  have hlast : #[3, 0, 0, 0, 0, 0, 0, 0, 1, 100, 0, 0] = Array.ofFn fun i : Fin 12 =>
      ((lastWrite [(0, 127), (8, 1), (9, 100), (0, 3)] i).getD 0).toUInt32 := by
    decide +kernel
  have hpacked := hvalues 12 7 ha
  rw [← hlast] at hpacked
  obtain ⟨-, rfl⟩ := zeros_eq_ok ha
  refine ⟨_, b, ha, hb, hget 0 (by decide), ?_, hget 8 (by decide), hget 9 (by decide), hpacked⟩
  rw [hget 1 (by decide)]
  decide +kernel

end Packed

end VoxelStore
