import VoxelStore.Palette.Section
import VoxelStore.Proofs.Packed.Layout
import VoxelStore.Proofs.SectionArray.Writes
/-!
# Reading sections of any origin

The readers of a section go through its entries in order, and stop at the first that has no value.
`Begins g vs` says that the section begins with the values `vs`; `decode_append` and `decodeInto_append`
say what the readers make of such a beginning, whatever comes behind it. A section whose parts were checked
has an answer for every entry, so that nothing but the palette decides which entries have values
(`ofParts_readers`).
-/

namespace VoxelStore

namespace Palette

/-- The table that the entries of a section are indices into, if there is any. -/
def table? (g : GlobalPalette) : Palette → Option (Array UInt32)
  | single _ => none
  | indirect values => some values
  | global => some g.ordinals

/-- An index is resolved by the table. Behind the end of the table it is an error. -/
theorem resolve_of_table {p : Palette} {g : GlobalPalette} {table : Array UInt32} (h : p.table? g = some table)
    (entry : UInt64) :
    p.resolve g entry =
      (table[entry.toNat]?).elim (.error (.paletteIndexOutOfRange entry table.size)) .ok := by
  cases p with
  | single value => cases h
  | indirect values =>
    cases h
    rw [resolve]
    cases table[entry.toNat]? <;> rfl
  | global =>
    cases h
    rw [resolve, GlobalPalette.ordinalOf, GlobalPalette.size]
    cases g.ordinals[entry.toNat]? <;> rfl

end Palette

namespace Checked

variable {α β : Type} {x : Checked α} {k : α → Checked β}

/-- The computation ends in a value or in an error, not in a fault. -/
def Ends (x : Checked α) : Prop := ∃ r, x.run = .ok r

/-- A computation ends in a value, an error or a fault. -/
theorem cases (x : Checked α) : (∃ v, x = pure v) ∨ (∃ e, x = throw e) ∨ ∃ f, x.run = .error f :=
  match x with
  | .ok (.ok v) => .inl ⟨v, rfl⟩
  | .ok (.error e) => .inr (.inl ⟨e, rfl⟩)
  | .error f => .inr (.inr ⟨f, rfl⟩)

theorem Ends.cases (h : x.Ends) : (∃ v, x = pure v) ∨ ∃ e, x = throw e := by
  rcases Checked.cases x with hv | he | ⟨f, hf⟩
  · exact .inl hv
  · exact .inr he
  · obtain ⟨r, hr⟩ := h
    rw [hf] at hr
    cases hr

theorem pure_inj {v u : α} : (pure v : Checked α) = pure u ↔ v = u := by
  constructor
  · intro h
    cases h
    rfl
  · rintro rfl
    rfl

theorem mk_eq_pure_iff {r : Except StoreError α} {v : α} : (ExceptT.mk (.ok r) : Checked α) = pure v ↔ r = .ok v := by
  constructor
  · intro h
    cases h
    rfl
  · rintro rfl
    rfl

/-- What follows a computation without a value never runs. -/
theorem bind_of_not_value (h : ∀ v, x ≠ pure v) (k : α → Checked β) :
    (∀ v, x >>= k ≠ pure v) ∧ (∀ e, x >>= k = throw e ↔ x = throw e) ∧
      ∀ f, (x >>= k).run = .error f ↔ x.run = .error f := by
  rcases cases x with ⟨v, rfl⟩ | ⟨e, rfl⟩ | ⟨f, hf⟩
  · exact absurd rfl (h v)
  · refine ⟨nofun, fun e' => ?_, fun f => ⟨nofun, nofun⟩⟩
    constructor
    · rintro ⟨⟩
      rfl
    · rintro ⟨⟩
      rfl
  · have hx : x = ExceptT.mk (.error f) := hf
    subst hx
    refine ⟨nofun, fun e' => ⟨nofun, nofun⟩, fun f' => ?_⟩
    constructor
    · rintro ⟨⟩
      rfl
    · rintro ⟨⟩
      rfl

end Checked

namespace PalettedSection

variable {s : PalettedSection} {g : GlobalPalette} {vs : List UInt32}

/-! ## Beginnings -/

variable (s g) in
/-- The first entries have the values `vs`. -/
def Begins (vs : List UInt32) : Prop := ∀ i (h : i < vs.length), s.fieldValue g i = pure vs[i]

/-- A section begins with the values of all entries, or of those before the first that has none. -/
theorem exists_begins (s : PalettedSection) (g : GlobalPalette) (n : Nat) :
    ∃ vs, s.Begins g vs ∧ (vs.length = n ∨ vs.length < n ∧ ∀ v, s.fieldValue g vs.length ≠ pure v) := by
  induction n with
  | zero => exact ⟨[], nofun, .inl rfl⟩
  | succ n ih =>
    rcases ih with ⟨vs, hvs, rfl | ⟨hlt, hstop⟩⟩
    · by_cases hv : ∃ v, s.fieldValue g vs.length = pure v
      · obtain ⟨v, hv⟩ := hv
        refine ⟨vs ++ [v], fun i hi => ?_, .inl (by simp)⟩
        rw [List.getElem_append]
        split
        · next h => exact hvs i h
        · next h =>
          have hi : i = vs.length := by simp at hi; omega
          simp [hi, hv]
      · exact ⟨vs, hvs, .inr ⟨Nat.lt_succ_self _, fun v h => hv ⟨v, h⟩⟩⟩
    · exact ⟨vs, hvs, .inr ⟨Nat.lt_succ_of_lt hlt, hstop⟩⟩

theorem Begins.from_zero (h : s.Begins g vs) :
    ∀ j (hj : j < vs.length), s.fieldValue g (0 + j) = pure vs[j] := by
  intro j hj
  rw [Nat.zero_add]
  exact h j hj

/-- A row of values from entry `i` on is the value of this entry and a row from the next one on. -/
theorem fieldValue_cons {i : Nat} {v : UInt32}
    (h : ∀ j (hj : j < (v :: vs).length), s.fieldValue g (i + j) = pure (v :: vs)[j]) :
    s.fieldValue g i = pure v ∧ ∀ j (hj : j < vs.length), s.fieldValue g (i + 1 + j) = pure vs[j] := by
  refine ⟨h 0 (Nat.zero_lt_succ _), fun j hj => ?_⟩
  rw [Nat.add_right_comm]
  exact h (j + 1) (Nat.succ_lt_succ hj)

/-- Decoding puts the values of the entries behind those decoded before. -/
theorem decodeFrom_append {i : Nat} (h : ∀ j (hj : j < vs.length), s.fieldValue g (i + j) = pure vs[j]) (n : Nat)
    (before : Array UInt32) :
    s.decodeFrom g (vs.length + n) i before = s.decodeFrom g n (i + vs.length) (before ++ vs) := by
  induction vs generalizing i before with
  | nil => simp
  | cons v vs ih =>
    obtain ⟨hfirst, hrest⟩ := fieldValue_cons h
    rw [List.length_cons, Nat.add_right_comm, decodeFrom, hfirst, pure_bind, ih hrest, Nat.add_right_comm i,
      Nat.add_assoc i]
    simp

/-- Decoding writes the values of the entries one after the other. -/
theorem writeFrom_append {i : Nat} {out : SectionArray}
    (h : ∀ j (hj : j < vs.length), s.fieldValue g (i + j) = pure vs[j])
    (hfit : ∀ v ∈ vs, out.width.Holds v) (hi : i + vs.length ≤ sectionBlocks) (n : Nat) :
    ∃ out', s.writeFrom g (vs.length + n) i out = s.writeFrom g n (i + vs.length) out' ∧
      out'.width = out.width ∧
      ∀ k (hk : k < sectionBlocks), out'.cells[k] = if i ≤ k then vs[k - i]?.getD out.cells[k] else out.cells[k] := by
  induction vs generalizing i out with
  | nil => exact ⟨out, by simp, rfl, fun k hk => by simp⟩
  | cons v vs ih =>
    obtain ⟨hfirst, hrest⟩ := fieldValue_cons h
    rw [List.length_cons] at hi ⊢
    have hi' : i < sectionBlocks := by omega
    obtain ⟨out₁, hset⟩ := SectionArray.set_of_holds (hfit v List.mem_cons_self) hi'
    obtain ⟨hwidth, hcells⟩ := SectionArray.set_eq_ok hset
    obtain ⟨out', hrun, hwidth', hcells'⟩ :=
      ih hrest (fun u hu => hwidth ▸ hfit u (List.mem_cons_of_mem v hu)) (by omega)
    refine ⟨out', ?_, hwidth'.trans hwidth, fun k hk => ?_⟩
    · have hvalue : (s.fieldValue g i).run = .ok (.ok v) := by rw [hfirst]; rfl
      rw [Nat.add_right_comm, writeFrom, hvalue]
      show (out.set i v >>= fun out => s.writeFrom g (vs.length + n) (i + 1) out) = _
      rw [hset]
      show s.writeFrom g (vs.length + n) (i + 1) out₁ = _
      rw [hrun, Nat.add_assoc i, Nat.add_comm 1]
    · rw [hcells' k hk]
      simp only [hcells, Vector.getElem_setIfInBounds]
      rcases Nat.lt_trichotomy k i with hlt | rfl | hgt
      · rw [if_neg (by omega), if_neg (by omega), if_neg (by omega)]
      · simp
      · have hindex : k - i = k - (i + 1) + 1 := by omega
        rw [if_pos (by omega), if_neg (by omega), if_pos (by omega), hindex, List.getElem?_cons_succ]

/-- When decoding has gone through, the cells hold the values of their entries. -/
theorem writeFrom_eq_ok {count i : Nat} {out filled : SectionArray}
    (h : s.writeFrom g count i out = .ok (.ok (), filled)) (hroom : i + count ≤ sectionBlocks) :
    (∀ k (hk : k < sectionBlocks), k < i → filled.cells[k] = out.cells[k]) ∧
      ∀ k (hk : k < sectionBlocks), i ≤ k → k < i + count → s.fieldValue g k = pure filled.cells[k] := by
  induction count generalizing i out with
  | zero =>
    cases h
    exact ⟨fun _ _ _ => rfl, fun k _ hle hlt => absurd hlt (Nat.not_lt_of_le hle)⟩
  | succ count ih =>
    rw [writeFrom] at h
    obtain ⟨result, hvalue, h⟩ := except_bind_eq_ok.1 h
    cases result with
    | error e => cases h
    | ok value =>
      obtain ⟨written, hset, h⟩ := except_bind_eq_ok.1 h
      obtain ⟨-, hcells⟩ := SectionArray.set_eq_ok hset
      obtain ⟨hbefore, hvalues⟩ := ih h (by omega)
      refine ⟨fun k hk hlt => ?_, fun k hk hle hlt => ?_⟩
      · rw [hbefore k hk (Nat.lt_succ_of_lt hlt)]
        simp [hcells, Nat.ne_of_gt hlt]
      · rcases Nat.eq_or_lt_of_le hle with rfl | hgt
        · rw [hbefore i hk (Nat.lt_succ_self i)]
          simpa [hcells] using (show s.fieldValue g i = pure value from hvalue)
        · exact hvalues k hk hgt (by omega)

/-! ## Entries -/

theorem get_of_lt {i : Nat} (h : i < s.data.len) : s.get g i = s.fieldValue g i := if_pos h

theorem get_of_not_lt {i : Nat} (h : ¬i < s.data.len) : s.get g i = throw (.entryOutOfRange i s.data.len) :=
  if_neg h

/-- An entry with a word has the value, or the error, that the palette gives its number. -/
theorem fieldValue_of_hasField {i : Nat} (h : s.data.HasField i) :
    s.fieldValue g i = ExceptT.mk (.ok (s.palette.resolve g (UInt64.ofNat (s.data.entry i)))) := by
  rw [fieldValue, Packed.field_of_hasField h]
  rfl

variable (s g) in
/-- Entry `i` is the first without a value. -/
structure FirstWithout (i : Nat) : Prop where
  lt : i < s.data.len
  not_value : ∀ v, s.get g i ≠ pure v
  before : ∀ j, j < i → ∃ v, s.get g j = pure v

theorem FirstWithout.unique {i j : Nat} (hi : s.FirstWithout g i) (hj : s.FirstWithout g j) : i = j := by
  rcases Nat.lt_trichotomy i j with hlt | heq | hgt
  · obtain ⟨v, hv⟩ := hj.before i hlt
    exact absurd hv (hi.not_value v)
  · exact heq
  · obtain ⟨v, hv⟩ := hi.before j hgt
    exact absurd hv (hj.not_value v)

/-- The values before the first entry without one. -/
theorem FirstWithout.begins {i : Nat} (hi : s.FirstWithout g i) : ∃ vs, s.Begins g vs ∧ vs.length = i := by
  rcases exists_begins s g i with ⟨vs, hvs, hlen | ⟨hlt, hstop⟩⟩
  · exact ⟨vs, hvs, hlen⟩
  · obtain ⟨v, hv⟩ := hi.before vs.length hlt
    rw [get_of_lt (Nat.lt_trans hlt hi.lt)] at hv
    exact absurd hv (hstop v)

/-! ## Decoding -/

theorem decode_append (h : s.Begins g vs) (hle : vs.length ≤ s.data.len) :
    s.decode g = s.decodeFrom g (s.data.len - vs.length) vs.length vs.toArray := by
  have happend := decodeFrom_append h.from_zero (s.data.len - vs.length) #[]
  rw [Nat.add_sub_cancel' hle, Nat.zero_add] at happend
  rw [decode, happend]
  simp

/-- Decoding gives a value for every entry, or ends as reading the first entry without one does. -/
theorem decode_cases (s : PalettedSection) (g : GlobalPalette) :
    (∃ values : Array UInt32, s.decode g = pure values ∧ values.size = s.data.len ∧
        ∀ i (h : i < values.size), s.get g i = pure values[i]) ∨
      ∃ i, s.FirstWithout g i ∧ ∃ k : UInt32 → Checked (Array UInt32), s.decode g = s.get g i >>= k := by
  rcases exists_begins s g s.data.len with ⟨vs, hvs, hlen | ⟨hlt, hstop⟩⟩
  · refine .inl ⟨vs.toArray, ?_, by simpa using hlen, fun i hi => ?_⟩
    · rw [decode_append hvs (Nat.le_of_eq hlen), hlen, Nat.sub_self]
      rfl
    · have hi' : i < vs.length := by simpa using hi
      rw [get_of_lt (hlen ▸ hi'), hvs i hi', List.getElem_toArray]
  · refine .inr ⟨vs.length, ⟨hlt, ?_, fun j hj => ⟨vs[j], ?_⟩⟩, ?_⟩
    · rwa [get_of_lt hlt]
    · rw [get_of_lt (Nat.lt_trans hj hlt), hvs j hj]
    · obtain ⟨n, hn⟩ : ∃ n, s.data.len - vs.length = n + 1 := ⟨s.data.len - vs.length - 1, by omega⟩
      rw [decode_append hvs (Nat.le_of_lt hlt), hn, get_of_lt hlt]
      exact ⟨_, rfl⟩

theorem decode_eq_pure_iff {values : Array UInt32} :
    s.decode g = pure values ↔
      values.size = s.data.len ∧ ∀ i (h : i < values.size), s.get g i = pure values[i] := by
  rcases decode_cases s g with ⟨vs, hvs, hsize, hget⟩ | ⟨i, hi, k, hk⟩
  · rw [hvs, Checked.pure_inj]
    constructor
    · rintro rfl
      exact ⟨hsize, hget⟩
    · rintro ⟨hsize', hget'⟩
      refine Array.ext (hsize.trans hsize'.symm) fun i hi hi' => ?_
      exact Checked.pure_inj.1 ((hget i hi).symm.trans (hget' i hi'))
  · rw [hk]
    constructor
    · exact fun h => absurd h ((Checked.bind_of_not_value hi.not_value k).1 values)
    · rintro ⟨hsize, hget⟩
      exact absurd (hget i (hsize ▸ hi.lt)) (hi.not_value _)

theorem decode_eq_throw_iff {e : StoreError} :
    s.decode g = throw e ↔ ∃ i, s.FirstWithout g i ∧ s.get g i = throw e := by
  rcases decode_cases s g with ⟨vs, hvs, hsize, hget⟩ | ⟨i, hi, k, hk⟩
  · rw [hvs]
    constructor
    · exact nofun
    · rintro ⟨i, hi, -⟩
      exact absurd (hget i (hsize ▸ hi.lt)) (hi.not_value _)
  · rw [hk, (Checked.bind_of_not_value hi.not_value k).2.1]
    constructor
    · exact fun h => ⟨i, hi, h⟩
    · rintro ⟨j, hj, h⟩
      rwa [hi.unique hj]

theorem decode_eq_fault_iff {f : Fault} :
    (s.decode g).run = .error f ↔ ∃ i, s.FirstWithout g i ∧ (s.get g i).run = .error f := by
  rcases decode_cases s g with ⟨vs, hvs, hsize, hget⟩ | ⟨i, hi, k, hk⟩
  · rw [hvs]
    constructor
    · exact nofun
    · rintro ⟨i, hi, -⟩
      exact absurd (hget i (hsize ▸ hi.lt)) (hi.not_value _)
  · rw [hk, (Checked.bind_of_not_value hi.not_value k).2.2]
    constructor
    · exact fun h => ⟨i, hi, h⟩
    · rintro ⟨j, hj, h⟩
      rwa [hi.unique hj]

/-- Where there are enough words, no entry faults. -/
theorem get_ends (h : s.data.Complete) (i : Nat) : (s.get g i).Ends := by
  by_cases hi : i < s.data.len
  · rw [get_of_lt hi, fieldValue_of_hasField (Packed.complete_iff.1 h i hi)]
    exact ⟨_, rfl⟩
  · rw [get_of_not_lt hi]
    exact ⟨_, rfl⟩

theorem decode_ends (h : s.data.Complete) : (s.decode g).Ends := by
  rcases Checked.cases (s.decode g) with ⟨values, hv⟩ | ⟨e, he⟩ | ⟨f, hf⟩
  · exact ⟨.ok values, by rw [hv]; rfl⟩
  · exact ⟨.error e, by rw [he]; rfl⟩
  · obtain ⟨i, -, hi⟩ := decode_eq_fault_iff.1 hf
    obtain ⟨r, hr⟩ := get_ends (g := g) h i
    rw [hi] at hr
    cases hr

/-! ## Decoding into an array -/

theorem decodeInto_append {out : SectionArray} (hkind : s.kind = .blocks) (h : s.Begins g vs)
    (hle : vs.length ≤ s.data.len) (hfit : ∀ v ∈ vs, out.width.Holds v) (hroom : vs.length ≤ sectionBlocks) :
    ∃ out', s.decodeInto g out = s.writeFrom g (s.data.len - vs.length) vs.length out' ∧
      out'.width = out.width ∧ ∀ k (hk : k < sectionBlocks), out'.cells[k] = vs[k]?.getD out.cells[k] := by
  obtain ⟨out', hrun, hwidth, hcells⟩ :=
    writeFrom_append h.from_zero hfit (by rwa [Nat.zero_add]) (s.data.len - vs.length)
  refine ⟨out', ?_, hwidth, hcells⟩
  rw [Nat.add_sub_cancel' hle, Nat.zero_add] at hrun
  rw [decodeInto, hkind]
  exact hrun

/-- A section that can be decoded fills the array with its values. -/
theorem decodeInto_of_decode {values : Array UInt32} {out : SectionArray} (hkind : s.kind = .blocks)
    (hlen : s.data.len ≤ sectionBlocks) (hfit : ∀ v ∈ values, out.width.Holds v)
    (h : s.decode g = pure values) :
    ∃ filled, s.decodeInto g out = .ok (.ok (), filled) ∧ filled.width = out.width ∧
      ∀ k (hk : k < sectionBlocks), filled.cells[k] = values[k]?.getD out.cells[k] := by
  obtain ⟨hsize, hget⟩ := decode_eq_pure_iff.1 h
  have hlen' : values.toList.length = s.data.len := by rw [Array.length_toList, hsize]
  have hvs : s.Begins g values.toList := by
    intro i hi
    rw [Array.length_toList] at hi
    rw [← get_of_lt (hsize ▸ hi), hget i hi, Array.getElem_toList]
  obtain ⟨filled, hrun, hwidth, hcells⟩ := decodeInto_append hkind hvs (Nat.le_of_eq hlen')
    (fun v hv => hfit v (Array.mem_toList_iff.1 hv)) (by rwa [hlen'])
  refine ⟨filled, ?_, hwidth, fun k hk => by rw [hcells k hk, Array.getElem?_toList]⟩
  rw [hrun, hlen', Nat.sub_self]
  rfl

/-- Where an entry has no value, the values before it are written already and the others are not. -/
theorem decodeInto_of_first {i : Nat} {out : SectionArray} (hkind : s.kind = .blocks)
    (hi : s.FirstWithout g i) (hroom : i ≤ sectionBlocks)
    (hfit : ∀ j v, j < i → s.get g j = pure v → out.width.Holds v) :
    (∀ f, (s.get g i).run = .error f → s.decodeInto g out = .error f) ∧
      ∀ e, s.get g i = throw e → ∃ written, s.decodeInto g out = .ok (.error e, written) ∧
        written.width = out.width ∧ ∀ k (hk : k < sectionBlocks),
          (k < i → s.get g k = pure written.cells[k]) ∧ (i ≤ k → written.cells[k] = out.cells[k]) := by
  obtain ⟨vs, hvs, rfl⟩ := hi.begins
  have hget : ∀ k (hk : k < vs.length), s.get g k = pure vs[k] := fun k hk => by
    rw [get_of_lt (Nat.lt_trans hk hi.lt), hvs k hk]
  have hfit' : ∀ v ∈ vs, out.width.Holds v := by
    intro v hv
    obtain ⟨j, hj, rfl⟩ := List.mem_iff_getElem.1 hv
    exact hfit j _ hj (hget j hj)
  obtain ⟨written, hrun, hwidth, hcells⟩ := decodeInto_append hkind hvs (Nat.le_of_lt hi.lt) hfit' hroom
  obtain ⟨n, hn⟩ : ∃ n, s.data.len - vs.length = n + 1 := by
    have hlt := hi.lt
    exact ⟨s.data.len - vs.length - 1, by omega⟩
  rw [hrun, hn, writeFrom, ← get_of_lt hi.lt]
  constructor
  · intro f hf
    rw [hf]
    rfl
  · intro e he
    refine ⟨written, by rw [he]; rfl, hwidth, fun k hk => ⟨fun hlt => ?_, fun hle => ?_⟩⟩
    · rw [hget k hlt, hcells k hk, List.getElem?_eq_getElem hlt]
      rfl
    · rw [hcells k hk, List.getElem?_eq_none hle]
      rfl

/-! ## Checked parts -/

theorem ofParts_eq_ok_iff {kind : PaletteKind} {palette : Palette} {bits : Nat} {words : Array UInt64}
    {nonAir : UInt16} :
    ofParts kind palette bits words nonAir = .ok s ↔
      (bits ≤ 32 ∧ words.size = Packed.wordsNeeded kind.entries bits) ∧
        s = ⟨kind, palette, ⟨kind.entries, bits, words⟩, nonAir⟩ := by
  rw [ofParts, except_bind_eq_ok]
  constructor
  · rintro ⟨a, ha, ⟨⟩⟩
    obtain ⟨hparts, rfl⟩ := Packed.ofWords_eq_ok_iff.1 ha
    exact ⟨hparts, rfl⟩
  · rintro ⟨hparts, rfl⟩
    exact ⟨_, Packed.ofWords_eq_ok_iff.2 ⟨hparts, rfl⟩, rfl⟩

/-- Parts make a section exactly if the width is at most 32 and there are as many words as the layout needs.
No reader of such a section faults, whatever is in its words and its palette. Reading an entry gives what the
palette has for the number in its place, and an error only behind the end of the section or of the table
that the number is an index into. Decoding gives the values of all entries, or the error of the first entry
that has one; a section of blocks is decoded into an array, with the values before that entry written and
the others left alone, and a section of biomes is refused. -/
theorem ofParts_readers (kind : PaletteKind) (palette : Palette) (bits : Nat) (words : Array UInt64)
    (nonAir : UInt16) :
    ((∃ s, ofParts kind palette bits words nonAir = .ok s) ↔
      bits ≤ 32 ∧ words.size = Packed.wordsNeeded kind.entries bits) ∧
    ∀ s, ofParts kind palette bits words nonAir = .ok s → ∀ g : GlobalPalette,
      (∀ i, kind.entries ≤ i → s.get g i = throw (.entryOutOfRange i kind.entries)) ∧
      (∀ i, i < kind.entries →
        (∀ v, palette = .single v → s.get g i = pure v) ∧
        ∀ table, palette.table? g = some table →
          let raw := (Packed.mk kind.entries bits words).entry i
          s.get g i =
            if h : raw < table.size then pure table[raw]
            else throw (.paletteIndexOutOfRange (UInt64.ofNat raw) table.size)) ∧
      (s.decode g).Ends ∧
      (∀ values, s.decode g = pure values ↔
        values.size = kind.entries ∧ ∀ i (h : i < values.size), s.get g i = pure values[i]) ∧
      (∀ e, s.decode g = throw e ↔ ∃ i, s.FirstWithout g i ∧ s.get g i = throw e) ∧
      (kind = .blocks → ∀ out : SectionArray,
        (∀ i v, (∀ j, j < i → ∃ u, s.get g j = pure u) → s.get g i = pure v → out.width.Holds v) →
        (∀ values, s.decode g = pure values → ∃ filled, s.decodeInto g out = .ok (.ok (), filled) ∧
          filled.width = out.width ∧ filled.cells.toArray = values) ∧
        ∀ i e, s.FirstWithout g i → s.get g i = throw e → ∃ written,
          s.decodeInto g out = .ok (.error e, written) ∧ written.width = out.width ∧
            ∀ k (h : k < sectionBlocks),
              (k < i → s.get g k = pure written.cells[k]) ∧ (i ≤ k → written.cells[k] = out.cells[k])) ∧
      (kind = .biomes → ∀ out, s.decodeInto g out = .ok (.error (.notBlocks .biomes), out)) := by
  refine ⟨⟨?_, fun h => ⟨_, ofParts_eq_ok_iff.2 ⟨h, rfl⟩⟩⟩, fun s hs g => ?_⟩
  · rintro ⟨s, hs⟩
    exact (ofParts_eq_ok_iff.1 hs).1
  obtain ⟨⟨hbits, hsize⟩, rfl⟩ := ofParts_eq_ok_iff.1 hs
  have h64 : bits ≤ 64 := Nat.le_trans hbits (by decide)
  have hfield := Packed.complete_iff.1 (Packed.complete_of_size (a := ⟨kind.entries, bits, words⟩) h64 hsize)
  refine ⟨fun i hi => get_of_not_lt (Nat.not_lt.2 hi), fun i hi => ⟨?_, ?_⟩, ?_,
    fun values => decode_eq_pure_iff, fun e => decode_eq_throw_iff, ?_, ?_⟩
  · rintro v rfl
    rw [get_of_lt hi, fieldValue_of_hasField (hfield i hi)]
    rfl
  · intro table htable
    rw [get_of_lt hi, fieldValue_of_hasField (hfield i hi), Palette.resolve_of_table htable,
      Packed.toNat_ofNat_entry h64]
    dsimp only
    split
    · next h => rw [Array.getElem?_eq_getElem h]; rfl
    · next h => rw [Array.getElem?_eq_none (Nat.not_lt.1 h)]; rfl
  · exact decode_ends (Packed.complete_iff.2 hfield)
  · rintro rfl out hfit
    refine ⟨fun values hd => ?_, fun i e hi he => (decodeInto_of_first rfl hi (Nat.le_of_lt hi.lt) ?_).2 e he⟩
    · obtain ⟨hlen, hget⟩ := decode_eq_pure_iff.1 hd
      have hvalues : ∀ v ∈ values, out.width.Holds v := by
        intro v hv
        obtain ⟨i, hi, rfl⟩ := Array.mem_iff_getElem.1 hv
        exact hfit i _ (fun j hj => ⟨_, hget j (Nat.lt_trans hj hi)⟩) (hget i hi)
      obtain ⟨filled, hrun, hwidth, hcells⟩ := decodeInto_of_decode rfl (Nat.le_refl _) hvalues hd
      refine ⟨filled, hrun, hwidth, Array.ext (filled.cells.size_toArray.trans hlen.symm) fun k hk hk' => ?_⟩
      have hk'' : k < sectionBlocks := filled.cells.size_toArray ▸ hk
      rw [Vector.getElem_toArray, hcells k hk'', Array.getElem?_eq_getElem hk']
      rfl
    · exact fun j v hj hv => hfit j v (fun k hk => hi.before k (Nat.lt_trans hk hj)) hv
  · rintro rfl out
    rfl

/-- A section of one block state with a stray index in its third entry. The entries before
it are written, and the others keep what they held. -/
theorem ofParts_readers_strayIndex :
    ∃ s, ofParts .blocks (.indirect #[5]) 1 (#[4] ++ Array.replicate 63 0) 0 = .ok s ∧
      s.decode (.identity 16) = throw (.paletteIndexOutOfRange 1 1) ∧
      ∃ written, s.decodeInto (.identity 16) (.blank .wide) = .ok (.error (.paletteIndexOutOfRange 1 1), written) ∧
        written.cells[0] = 5 ∧ written.cells[1] = 5 ∧ written.cells[2] = 0 := by
  obtain ⟨hparts, hreaders⟩ :=
    ofParts_readers .blocks (.indirect #[5]) 1 (#[4] ++ Array.replicate 63 0) 0
  obtain ⟨s, hs⟩ := hparts.2 (by decide)
  obtain ⟨-, hget, -, -, hdecode, hinto, -⟩ := hreaders s hs (.identity 16)
  have hraw : ∀ i, i < sectionBlocks → _ := fun i hi => (hget i hi).2 _ rfl
  have hzero : s.get (.identity 16) 0 = pure 5 := hraw 0 (by decide)
  have hone : s.get (.identity 16) 1 = pure 5 := hraw 1 (by decide)
  have htwo : s.get (.identity 16) 2 = throw (.paletteIndexOutOfRange 1 1) := hraw 2 (by decide)
  have hfirst : s.FirstWithout (.identity 16) 2 := by
    obtain ⟨-, rfl⟩ := ofParts_eq_ok_iff.1 hs
    refine ⟨by decide, fun v hv => ?_, fun j hj => ?_⟩
    · rw [htwo] at hv
      cases hv
    · match j, hj with
      | 0, _ => exact ⟨5, hzero⟩
      | 1, _ => exact ⟨5, hone⟩
  obtain ⟨written, hrun, -, hcells⟩ :=
    (hinto rfl (.blank .wide) fun _ v _ _ => ArrayWidth.holds_wide v).2 2 _ hfirst htwo
  refine ⟨s, hs, (hdecode _).2 ⟨2, hfirst, htwo⟩, written, hrun, ?_, ?_, ?_⟩
  · exact (Checked.pure_inj.1 (hzero.symm.trans ((hcells 0 (by decide)).1 (by decide)))).symm
  · exact (Checked.pure_inj.1 (hone.symm.trans ((hcells 1 (by decide)).1 (by decide)))).symm
  · exact (hcells 2 (by decide)).2 (by decide)

end PalettedSection

end VoxelStore
