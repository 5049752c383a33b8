import VoxelStore.Proofs.Packed.Padding
/-!
# Packing and reading are inverse to each other

`packing_canonical` compares the two ways between values and words. Values that are packed are read back, cut to
their width; words that are read and packed again are the same words, unless one of their padding bits is set.
The words that packing writes into scratch space are the same for any content of it, and the rest of the scratch
space is left alone.
-/

namespace VoxelStore

namespace Packed

variable {a : Packed} {bits count i len used w : Nat} {values : Array UInt32} {words scratch : Array UInt64}

/-! ## Reading -/

theorem fieldsFrom_eq (h : ∀ k, i ≤ k → k < i + count → a.HasField k) (before : Array UInt64) :
    a.fieldsFrom count i before =
      .ok (before ++ (List.range' i count).map fun k => UInt64.ofNat (a.entry k)) := by
  induction count generalizing i before with
  | zero => simp [fieldsFrom]
  | succ count ih =>
    have hrest : ∀ k, i + 1 ≤ k → k < i + 1 + count → a.HasField k := fun k hk hlt => h k (by omega) (by omega)
    rw [fieldsFrom, field_of_hasField (h i (Nat.le_refl i) (by omega))]
    show a.fieldsFrom count (i + 1) (before.push (UInt64.ofNat (a.entry i))) = _
    rw [ih hrest, List.range'_succ]
    simp

/-- Where there are enough words, all values are read. -/
theorem values_eq (h : a.Complete) :
    a.values = .ok (Array.ofFn fun i : Fin a.len => UInt64.ofNat (a.entry i)) := by
  have hfield := complete_iff.1 h
  rw [values, fieldsFrom_eq fun k _ hk => hfield k (by omega)]
  refine congrArg Except.ok ?_
  apply Array.ext <;> simp

/-! ## Packing -/

theorem ofValues_of_le (h32 : bits ≤ 32) (values : Array UInt32) : ∃ a, ofValues bits values = .ok a :=
  ⟨_, if_neg (Nat.not_lt_of_le h32)⟩

theorem ofValues_eq_ok (h : ofValues bits values = .ok a) :
    bits ≤ 32 ∧ a.len = values.size ∧ a.bits = bits ∧ a.words.size = wordsNeeded values.size bits ∧
      ∀ w, w < wordsNeeded values.size bits → a.words[w]? = some (packedWord bits values w) := by
  unfold ofValues at h
  split at h
  · cases h
  · next h32 =>
    cases h
    refine ⟨Nat.not_lt.1 h32, rfl, rfl, by simp, fun w hw => ?_⟩
    simp [hw]

/-- Words that the values are packed into hold the values, each cut to its width, and no padding bit is set. -/
theorem canonical_of_packed (h64 : a.bits ≤ 64) (hlen : values.size = a.len)
    (hsize : a.words.size = wordsNeeded a.len a.bits)
    (hwords : ∀ w, w < wordsNeeded a.len a.bits → a.words[w]? = some (packedWord a.bits values w)) :
    a.PaddingZero ∧ ∀ i (h : i < values.size), a.entry i = values[i].toNat % 2 ^ a.bits := by
  have htight := tight_of_packed h64 hlen hsize hwords
  exact ⟨((tight_iff h64).1 htight).2, fun i hi => (entry_of_packed hlen h64 hwords hi).2⟩

theorem ofValues_canonical (h : ofValues bits values = .ok a) :
    a.PaddingZero ∧ (∀ i (h : i < values.size), a.entry i = values[i].toNat % 2 ^ bits) ∧
      a.values = .ok (values.map fun v => UInt64.ofNat (v.toNat % 2 ^ bits)) := by
  obtain ⟨h32, hlen, rfl, hsize, hwords⟩ := ofValues_eq_ok h
  have h64 : a.bits ≤ 64 := Nat.le_trans h32 (by decide)
  rw [← hlen] at hsize hwords
  obtain ⟨hzero, hentry⟩ := canonical_of_packed h64 hlen.symm hsize hwords
  refine ⟨hzero, hentry, ?_⟩
  rw [values_eq (complete_of_size h64 hsize)]
  refine congrArg Except.ok (Array.ext (by simp [hlen]) fun i hi hi' => ?_)
  have hi'' : i < values.size := by simpa using hi'
  simp [hentry i hi'']

/-- Packing leaves the rest of the scratch space alone. -/
theorem packInto_frame (h : packInto bits values scratch = .ok (used, words)) (hw : used ≤ w) :
    words[w]? = scratch[w]? := by
  unfold packInto at h
  dsimp only at h
  split at h
  · cases h
  · cases h
    simp [Nat.not_lt.2 hw]

/-- In scratch space and in words of their own, values are packed into the same words. -/
theorem ofValues_of_packInto (h : packInto bits values scratch = .ok (used, words)) (h32 : bits ≤ 32) :
    ofValues bits values = .ok ⟨values.size, bits, words.extract 0 used⟩ := by
  obtain ⟨hsize, hwords⟩ := extract_of_packInto h
  rw [ofValues, if_neg (Nat.not_lt.2 h32)]
  refine congrArg (fun words => Except.ok (Packed.mk values.size bits words)) ?_
  refine Array.ext (by simp [hsize]) fun w hw hw' => ?_
  have hneeded : w < wordsNeeded values.size bits := hsize ▸ hw'
  have hword := hwords w hneeded
  rw [Array.getElem?_eq_getElem hw', Option.some.injEq] at hword
  simp [hword]

/-- The numbers that are read from fields of at most 32 bits are packed into the words that they were read
from, exactly if no padding bit is set there. -/
theorem ofValues_read_iff (h32 : a.bits ≤ 32) (hsize : a.words.size = wordsNeeded a.len a.bits)
    (hlen : values.size = a.len) (hread : ∀ i (h : i < values.size), values[i].toNat = a.entry i) :
    ofValues a.bits values = .ok a ↔ a.PaddingZero := by
  constructor
  · intro h
    exact (ofValues_canonical h).1
  · intro hzero
    obtain ⟨b, hb⟩ : ∃ b, ofValues a.bits values = .ok b := ⟨_, if_neg (Nat.not_lt.2 h32)⟩
    obtain ⟨-, hblen, hbbits, hbsize, -⟩ := ofValues_eq_ok hb
    obtain ⟨hbzero, hbentry, -⟩ := ofValues_canonical hb
    have heq : b = a := by
      apply eq_of_entries (hblen.trans hlen) hbbits (by rw [hbsize, hsize, hlen])
      · intro i hi
        have hi' : i < values.size := hlen ▸ hi
        -- what was read fits the width, so packing does not cut it
        rw [hbentry i hi', hread i hi', entry, Nat.mod_mod]
      · intro w j hpad
        have hpad' : b.IsPadding w j := by rwa [IsPadding, hbbits, hblen, hlen]
        rw [hzero w j hpad, hbzero w j hpad']
    rw [hb, heq]

theorem toNat_toUInt32_entry (h32 : a.bits ≤ 32) (i : Nat) :
    (UInt64.ofNat (a.entry i)).toUInt32.toNat = a.entry i := by
  have hlt : a.entry i < 2 ^ a.bits := Nat.mod_lt _ (Nat.two_pow_pos a.bits)
  have hle : 2 ^ a.bits ≤ 2 ^ 32 := Nat.pow_le_pow_right (by decide) h32
  rw [UInt64.toNat_toUInt32, toNat_ofNat_entry (Nat.le_trans h32 (by decide)),
    Nat.mod_eq_of_lt (Nat.lt_of_lt_of_le hlt hle)]

/-! ## Both ways -/

/-- For one width: any values are packed into as many words as they need, with no padding bit set, and read back
cut to the width, so that values which fit come back as they are. Words from outside hold as many values as their
layout says; packed again these make the same words exactly if no padding bit of them was set. Scratch space of
any content takes the values in the same places, and is not changed behind the words that they need. -/
theorem packing_canonical (bits : Nat) :
    (bits ≤ 32 → ∀ values : Array UInt32, ∃ a, ofValues bits values = .ok a ∧ a.len = values.size ∧
        a.bits = bits ∧ a.words.size = wordsNeeded values.size bits ∧
        a.values = .ok (values.map fun v => UInt64.ofNat (v.toNat % 2 ^ bits)) ∧
        ((∀ v ∈ values, v.toNat < 2 ^ bits) → a.values = .ok (values.map UInt32.toUInt64)) ∧ a.PaddingZero) ∧
      (1 ≤ bits → ∀ len words a, ofWords len bits words = .ok a → ∃ vs, a.values = .ok vs ∧ vs.size = len ∧
        (ofValues bits (vs.map UInt64.toUInt32) = .ok a ↔ a.PaddingZero)) ∧
      (1 ≤ bits → bits ≤ 64 → ∀ values scratch, wordsNeeded values.size bits ≤ scratch.size → ∃ words,
        packInto bits values scratch = .ok (wordsNeeded values.size bits, words) ∧ words.size = scratch.size ∧
        (∀ w, wordsNeeded values.size bits ≤ w → words[w]? = scratch[w]?) ∧
        let front : Packed := ⟨values.size, bits, words.extract 0 (wordsNeeded values.size bits)⟩
        (∀ i (h : i < values.size), front.entry i = values[i].toNat % 2 ^ bits) ∧ front.PaddingZero ∧
          (bits ≤ 32 → ofValues bits values = .ok front)) := by
  refine ⟨fun h32 values => ?_, fun _ len words a h => ?_, fun _ h64 values scratch hroom => ?_⟩
  · obtain ⟨a, ha⟩ : ∃ a, ofValues bits values = .ok a := ⟨_, if_neg (Nat.not_lt.2 h32)⟩
    obtain ⟨-, hlen, hbits, hsize, -⟩ := ofValues_eq_ok ha
    obtain ⟨hzero, -, hvalues⟩ := ofValues_canonical ha
    refine ⟨a, ha, hlen, hbits, hsize, hvalues, fun hfit => ?_, hzero⟩
    rw [hvalues]
    refine congrArg Except.ok (Array.map_congr_left fun v hv => ?_)
    rw [Nat.mod_eq_of_lt (hfit v hv), UInt64.ofNat_uInt32ToNat]
  · obtain ⟨⟨h32, hsize⟩, rfl⟩ := ofWords_eq_ok_iff.1 h
    have hcomplete := complete_of_size (a := ⟨len, bits, words⟩) (Nat.le_trans h32 (by decide)) hsize
    refine ⟨_, values_eq hcomplete, Array.size_ofFn,
      ofValues_read_iff (a := ⟨len, bits, words⟩) h32 hsize ?_ fun i hi => ?_⟩
    · rw [Array.size_map, Array.size_ofFn]
    · rw [Array.getElem_map, Array.getElem_ofFn]
      exact toNat_toUInt32_entry h32 i
  · obtain ⟨words, hpack, hwords, -⟩ := packInto_ok hroom
    obtain ⟨hsize, hword⟩ := extract_of_packInto hpack
    obtain ⟨hzero, hentry⟩ := canonical_of_packed
      (a := ⟨values.size, bits, words.extract 0 (wordsNeeded values.size bits)⟩) h64 rfl hsize hword
    exact ⟨words, hpack, hwords, fun w hw => packInto_frame hpack hw, hentry, hzero, ofValues_of_packInto hpack⟩

/-- Thirteen values of five bits need two words. The last value is cut, a bit behind the last value is lost, and the
third word of the scratch space is not touched. -/
theorem packing_canonical_thirteen :
    (∃ a, ofValues 5 (.replicate 12 31 ++ #[40]) = .ok a ∧ a.values = .ok (.replicate 12 31 ++ #[8])) ∧
      (∃ a vs, ofWords 13 5 #[0, 32] = .ok a ∧ a.values = .ok vs ∧
        ofValues 5 (vs.map UInt64.toUInt32) ≠ .ok a) ∧
      ∃ words, packInto 5 (.replicate 12 31 ++ #[40]) (.replicate 3 7) = .ok (2, words) ∧
        words.extract 0 2 = #[0xFFFFFFFFFFFFFFF, 8] ∧ words[2]? = some 7 := by
  obtain ⟨hpack, hread, hscratch⟩ := packing_canonical 5
  refine ⟨?_, ?_, ?_⟩
  · obtain ⟨a, ha, -, -, -, hvalues, -⟩ := hpack (by decide) (.replicate 12 31 ++ #[40])
    exact ⟨a, ha, hvalues.trans (congrArg Except.ok (by decide +kernel))⟩
  · have hwords : ofWords 13 5 #[0, 32] = .ok ⟨13, 5, #[0, 32]⟩ := ofWords_eq_ok_iff.2 ⟨by decide, rfl⟩
    obtain ⟨vs, hvs, -, hiff⟩ := hread (by decide) 13 #[0, 32] _ hwords
    refine ⟨_, vs, hwords, hvs, fun heq => ?_⟩
    have hbit := hiff.1 heq 1 5 (.inr (by decide))
    revert hbit
    decide
  · obtain ⟨words, hwords, -, hframe, -, -, hvalues⟩ :=
      hscratch (by decide) (by decide) (.replicate 12 31 ++ #[40]) (.replicate 3 7) (by decide)
    have hfront : ofValues 5 (.replicate 12 31 ++ #[40]) = .ok ⟨13, 5, #[0xFFFFFFFFFFFFFFF, 8]⟩ := by
      decide +kernel
    have heq := (hvalues (by decide)).symm.trans hfront
    rw [Except.ok.injEq, Packed.mk.injEq] at heq
    exact ⟨words, hwords, heq.2.2, hframe 2 (by decide)⟩

end Packed

end VoxelStore
