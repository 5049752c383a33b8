import VoxelStore.Palette.Json
import VoxelStore.Proofs.Json.Shape
import VoxelStore.Proofs.Palette.Reading
/-!
# Sections read from JSON

Reading a section from JSON checks the shape of the text, and not that the words match the length and the width
beside them. `ReadsSafely g` says that no reader faults. That holds exactly if there are enough words, and if a
section of blocks stops within the array it is decoded into (`readsSafely_iff`). Too few words are a fault and
never an error, while parts with such words are refused (`ofParts`).
-/

namespace VoxelStore

namespace Palette

/-- The only error of a palette is an index behind the end of its table. -/
theorem resolve_eq_error {p : Palette} {g : GlobalPalette} {entry : UInt64} {e : StoreError}
    (h : p.resolve g entry = .error e) : ∃ size, e = .paletteIndexOutOfRange entry size := by
  cases htable : p.table? g with
  | none =>
    cases p with
    | single value => cases h
    | indirect values => cases htable
    | global => cases htable
  | some table =>
    rw [resolve_of_table htable] at h
    cases hentry : table[entry.toNat]? with
    | none =>
      rw [hentry] at h
      cases h
      exact ⟨_, rfl⟩
    | some value =>
      rw [hentry] at h
      cases h

end Palette

namespace PalettedSection

variable {s : PalettedSection} {g : GlobalPalette}

variable (s g) in
/-- No reader of the section faults. Blocks are decoded into a blank array that holds every value. -/
structure ReadsSafely : Prop where
  get : ∀ i, (s.get g i).Ends
  decode : (s.decode g).Ends
  decodeInto : ∃ r, s.decodeInto g (.blank .wide) = .ok r

/-! ## Faults -/

/-- An entry without a word is a fault. -/
theorem fieldValue_of_not_hasField {i : Nat} (h : ¬s.data.HasField i) : ¬(s.fieldValue g i).Ends := by
  obtain ⟨f, hf⟩ := Packed.field_of_not_hasField h
  rw [fieldValue, hf]
  rintro ⟨r, ⟨⟩⟩

theorem complete_of_get_ends (h : ∀ i, (s.get g i).Ends) : s.data.Complete := by
  rw [Packed.complete_iff]
  intro i hi
  have hends := h i
  rw [get_of_lt hi] at hends
  exact Classical.byContradiction fun hnone => fieldValue_of_not_hasField hnone hends

/-- A section of blocks with a value for every place of an array and one more is a fault: that value has
no place. -/
theorem decodeInto_of_overlong {out : SectionArray} (hkind : s.kind = .blocks) (hlen : sectionBlocks < s.data.len)
    (hfit : ∀ v, out.width.Holds v) (h : ∀ i, i ≤ sectionBlocks → ∃ v, s.get g i = pure v) :
    ∃ f, s.decodeInto g out = .error f := by
  have hvalue : ∀ i, i ≤ sectionBlocks → ∃ v, s.fieldValue g i = pure v := by
    intro i hi
    rw [← get_of_lt (Nat.lt_of_le_of_lt hi hlen)]
    exact h i hi
  rcases exists_begins s g sectionBlocks with ⟨vs, hvs, hfull | ⟨hlt, hstop⟩⟩
  · obtain ⟨out', hrun, -, -⟩ := decodeInto_append hkind hvs (hfull ▸ Nat.le_of_lt hlen) (fun v _ => hfit v)
      (Nat.le_of_eq hfull)
    obtain ⟨v, hv⟩ := hvalue sectionBlocks (Nat.le_refl _)
    obtain ⟨n, hn⟩ : ∃ n, s.data.len - vs.length = n + 1 := ⟨s.data.len - vs.length - 1, by omega⟩
    obtain ⟨f, hf⟩ := SectionArray.set_of_not_lt (a := out') (v := v) (Nat.lt_irrefl sectionBlocks)
    refine ⟨f, ?_⟩
    rw [hrun, hn, hfull, writeFrom, hv]
    show (out'.set sectionBlocks v >>= fun out => s.writeFrom g n (sectionBlocks + 1) out) = _
    rw [hf]
    rfl
  · obtain ⟨v, hv⟩ := hvalue vs.length (Nat.le_of_lt hlt)
    exact absurd hv (hstop v)

/-- Decoding blocks with enough words into an array that holds every value ends if they are no more than
the array has places, or if there is an error among those. -/
theorem decodeInto_ends {out : SectionArray} (hkind : s.kind = .blocks) (hfit : ∀ v, out.width.Holds v)
    (hcomplete : s.data.Complete)
    (h : s.data.len ≤ sectionBlocks ∨ ∃ i, i ≤ sectionBlocks ∧ ∃ e, s.get g i = throw e) :
    ∃ r, s.decodeInto g out = .ok r := by
  rcases decode_cases s g with ⟨values, hvalues, hsize, hget⟩ | ⟨i, hi, -⟩
  · have hlen : s.data.len ≤ sectionBlocks := by
      rcases h with hlen | ⟨i, hi, e, he⟩
      · exact hlen
      · -- the error is behind the last entry, since all entries have values
        rcases Nat.lt_or_ge i s.data.len with hlt | hge
        · have hv := hget i (hsize ▸ hlt)
          rw [he] at hv
          cases hv
        · exact Nat.le_trans hge hi
    obtain ⟨filled, hrun, -⟩ := decodeInto_of_decode hkind hlen (fun v _ => hfit v) hvalues
    exact ⟨_, hrun⟩
  · have hroom : i ≤ sectionBlocks := by
      rcases h with hlen | ⟨j, hj, e, he⟩
      · exact Nat.le_trans (Nat.le_of_lt hi.lt) hlen
      · refine Nat.le_trans (Nat.le_of_not_lt fun hlt => ?_) hj
        obtain ⟨v, hv⟩ := hi.before j hlt
        rw [he] at hv
        cases hv
    rcases (get_ends hcomplete i).cases with ⟨v, hv⟩ | ⟨e, he⟩
    · exact absurd hv (hi.not_value v)
    · obtain ⟨written, hrun, -⟩ := (decodeInto_of_first hkind hi hroom fun _ v _ _ => hfit v).2 e he
      exact ⟨_, hrun⟩

/-- The readers are safe exactly if there are enough words, and if blocks stop within the array. -/
theorem readsSafely_iff :
    s.ReadsSafely g ↔ s.data.Complete ∧ (s.kind = .biomes ∨ s.data.len ≤ sectionBlocks ∨
      ∃ i, i ≤ sectionBlocks ∧ ∃ e, s.get g i = throw e) := by
  have hfit : ∀ v, (SectionArray.blank .wide).width.Holds v := ArrayWidth.holds_wide
  constructor
  · intro h
    refine ⟨complete_of_get_ends h.get, ?_⟩
    cases hkind : s.kind with
    | biomes => exact .inl rfl
    | blocks =>
      rcases Nat.lt_or_ge sectionBlocks s.data.len with hlen | hlen
      · refine .inr (.inr (Classical.byContradiction fun hnone => ?_))
        have hvalues : ∀ i, i ≤ sectionBlocks → ∃ v, s.get g i = pure v := by
          intro i hi
          rcases (h.get i).cases with hv | ⟨e, he⟩
          · exact hv
          · exact absurd ⟨i, hi, e, he⟩ hnone
        obtain ⟨f, hf⟩ := decodeInto_of_overlong hkind hlen hfit hvalues
        obtain ⟨r, hr⟩ := h.decodeInto
        rw [hf] at hr
        cases hr
      · exact .inr (.inl hlen)
  · rintro ⟨hcomplete, hstop⟩
    refine ⟨fun i => get_ends hcomplete i, decode_ends hcomplete, ?_⟩
    cases hkind : s.kind with
    | biomes =>
      rw [decodeInto, hkind]
      exact ⟨_, rfl⟩
    | blocks =>
      rw [hkind] at hstop
      exact decodeInto_ends hkind hfit hcomplete (hstop.resolve_left (by decide))

/-- Parts that are accepted make a section that reads safely. -/
theorem readsSafely_of_ofParts {kind : PaletteKind} {palette : Palette} {bits : Nat} {words : Array UInt64}
    {nonAir : UInt16} (h : ofParts kind palette bits words nonAir = .ok s) : s.ReadsSafely g := by
  obtain ⟨⟨hbits, hsize⟩, rfl⟩ := ofParts_eq_ok_iff.1 h
  refine readsSafely_iff.2 ⟨Packed.complete_of_size (Nat.le_trans hbits (by decide)) hsize, ?_⟩
  cases kind with
  | biomes => exact .inl rfl
  | blocks => exact .inr (.inl (Nat.le_refl _))

/-! ## Errors -/

/-- The only error of an entry with a place is an index behind the end of the table. -/
theorem fieldValue_eq_throw {i : Nat} {e : StoreError} (h : s.fieldValue g i = throw e) :
    ∃ index size, e = .paletteIndexOutOfRange index size := by
  by_cases hfield : s.data.HasField i
  · rw [fieldValue_of_hasField hfield] at h
    cases hresolve : s.palette.resolve g (UInt64.ofNat (s.data.entry i)) with
    | ok value =>
      rw [hresolve] at h
      cases h
    | error e' =>
      rw [hresolve] at h
      cases h
      obtain ⟨size, rfl⟩ := Palette.resolve_eq_error hresolve
      exact ⟨_, _, rfl⟩
  · exact absurd ⟨_, congrArg ExceptT.run h⟩ (fieldValue_of_not_hasField hfield)

theorem get_eq_throw {i : Nat} {e : StoreError} (h : s.get g i = throw e) :
    e = .entryOutOfRange i s.data.len ∨ ∃ index size, e = .paletteIndexOutOfRange index size := by
  by_cases hi : i < s.data.len
  · rw [get_of_lt hi] at h
    exact .inr (fieldValue_eq_throw h)
  · rw [get_of_not_lt hi] at h
    cases h
    exact .inl rfl

theorem decode_eq_throw {e : StoreError} (h : s.decode g = throw e) :
    ∃ index size, e = .paletteIndexOutOfRange index size := by
  obtain ⟨i, hi, he⟩ := decode_eq_throw_iff.1 h
  rw [get_of_lt hi.lt] at he
  exact fieldValue_eq_throw he

theorem writeFrom_eq_error {n i : Nat} {out written : SectionArray} {e : StoreError}
    (h : s.writeFrom g n i out = .ok (.error e, written)) : ∃ j, s.fieldValue g j = throw e := by
  induction n generalizing i out with
  | zero => cases h
  | succ n ih =>
    rw [writeFrom] at h
    rcases Checked.cases (s.fieldValue g i) with ⟨v, hv⟩ | ⟨e', he⟩ | ⟨f, hf⟩
    · rw [hv] at h
      change (out.set i v >>= fun out => s.writeFrom g n (i + 1) out) = _ at h
      obtain ⟨out', -, h⟩ := except_bind_eq_ok.1 h
      exact ih h
    · rw [he] at h
      cases h
      exact ⟨i, he⟩
    · rw [hf] at h
      cases h

theorem decodeInto_eq_error {out written : SectionArray} {e : StoreError}
    (h : s.decodeInto g out = .ok (.error e, written)) :
    s.kind = .biomes ∧ e = .notBlocks .biomes ∨ ∃ index size, e = .paletteIndexOutOfRange index size := by
  cases hkind : s.kind with
  | biomes =>
    rw [decodeInto, hkind] at h
    cases h
    exact .inl ⟨rfl, rfl⟩
  | blocks =>
    rw [decodeInto, hkind] at h
    obtain ⟨j, hj⟩ := writeFrom_eq_error h
    exact .inr (fieldValue_eq_throw hj)

/-! ## Texts -/

/-- The shape bounds the length and the width, each by itself. -/
theorem bounds_of_packed {j : Json} {a : Packed} (h : Packed.ofJson? j = some a) :
    a.len < UInt64.size ∧ a.bits < UInt64.size := by
  simp only [Packed.ofJson?, Option.bind_eq_bind, Option.bind_eq_some_iff] at h
  obtain ⟨fields, -, h⟩ := h
  split at h
  · simp only [Option.bind_eq_some_iff, Json.natBelow?_eq_some] at h
    obtain ⟨len, ⟨-, hlen⟩, bits, ⟨-, hbits⟩, words, -, h⟩ := h
    cases h
    exact ⟨hlen, hbits⟩
  · cases h

theorem bounds_of_readAs {text : String} (h : Json.readAs ofJson? text = .ok s) :
    s.data.len < UInt64.size ∧ s.data.bits < UInt64.size := by
  obtain ⟨j, -, h⟩ := except_bind_eq_ok.1 h
  have hshape : ofJson? j = some s := by
    split at h
    · next hshape =>
      cases h
      exact hshape
    · cases h
  simp only [ofJson?, Option.bind_eq_bind, Option.bind_eq_some_iff] at hshape
  obtain ⟨fields, -, hshape⟩ := hshape
  split at hshape
  · simp only [Option.bind_eq_some_iff] at hshape
    obtain ⟨kind, -, palette, -, data, hdata, nonAir, -, hshape⟩ := hshape
    cases hshape
    exact bounds_of_packed hdata
  · cases hshape

/-- A section read from a text has a length and a width of 64 bits each, whatever its words. It has an answer
for every entry exactly if there are enough words, and then it reads safely unless it has blocks behind the end
of an array and no error before them. What the readers report is an entry or an index out of range, or the wrong
kind: never the number of words. Parts of this length that are accepted read safely. -/
theorem readAs_readsSafely_iff (g : GlobalPalette) (text : String) (s : PalettedSection) :
    Json.readAs ofJson? text = .ok s →
      (s.data.len < UInt64.size ∧ s.data.bits < UInt64.size) ∧
      ((∀ i, (s.get g i).Ends) ↔ s.data.Complete) ∧
      (s.ReadsSafely g ↔ s.data.Complete ∧ (s.kind = .biomes ∨ s.data.len ≤ sectionBlocks ∨
        ∃ i, i ≤ sectionBlocks ∧ ∃ e, s.get g i = throw e)) ∧
      (∀ expected actual,
        (∀ i, s.get g i ≠ throw (.malformedSection expected actual)) ∧
        s.decode g ≠ throw (.malformedSection expected actual) ∧
        ∀ written, s.decodeInto g (.blank .wide) ≠ .ok (.error (.malformedSection expected actual), written)) ∧
      (ofParts s.kind s.palette s.data.bits s.data.words s.nonAir = .ok s → s.ReadsSafely g) := by
  intro hread
  refine ⟨bounds_of_readAs hread, ⟨complete_of_get_ends, fun h => get_ends h⟩, readsSafely_iff, ?_,
    readsSafely_of_ofParts⟩
  intro expected actual
  refine ⟨fun i h => ?_, fun h => ?_, fun written h => ?_⟩
  · rcases get_eq_throw h with ⟨⟨⟩⟩ | ⟨_, _, ⟨⟩⟩
  · obtain ⟨_, _, ⟨⟩⟩ := decode_eq_throw h
  · rcases decodeInto_eq_error h with ⟨-, ⟨⟩⟩ | ⟨_, _, ⟨⟩⟩

/-- Two biomes of 40 bits each, with one word too many. The parts are refused; the section read from
a text reads safely. -/
theorem readAs_readsSafely_iff_excess :
    ∃ s, Json.readAs ofJson? "[\"Biomes\",\"Global\",[2,40,[1,2,3]],0]" = .ok s ∧
      ofParts s.kind s.palette s.data.bits s.data.words s.nonAir = .error (.fieldTooWide 40) ∧
      s.ReadsSafely (.identity 16) := by
  have hread : Json.readAs ofJson? "[\"Biomes\",\"Global\",[2,40,[1,2,3]],0]" =
      .ok ⟨.biomes, .global, ⟨2, 40, #[1, 2, 3]⟩, 0⟩ := by rfl
  refine ⟨_, hread, rfl, ?_⟩
  exact (readAs_readsSafely_iff _ _ _ hread).2.2.1.2 ⟨by decide, .inl rfl⟩

/-- A text of 4096 blocks without words is read as a section, though its parts are refused for want of 256 words.
Reading its first entry faults, and so does decoding. -/
theorem readAs_missingWords :
    ∃ s, Json.readAs ofJson? "[\"Blocks\",\"Global\",[4096,4,[]],0]" = .ok s ∧
      ofParts s.kind s.palette s.data.bits s.data.words s.nonAir = .error (.malformedSection 256 0) ∧
      ∀ g, ¬(s.get g 0).Ends ∧ ¬(s.decode g).Ends ∧ ∀ r, s.decodeInto g (.blank .wide) ≠ .ok r := by
  refine ⟨⟨.blocks, .global, ⟨4096, 4, #[]⟩, 0⟩, rfl, rfl, fun g => ⟨?_, ?_, ?_⟩⟩
  · rintro ⟨r, ⟨⟩⟩
  · rintro ⟨r, ⟨⟩⟩
  · rintro r ⟨⟩

end PalettedSection

end VoxelStore
