import VoxelStore.Proofs.Json.Reading
import VoxelStore.Proofs.Palette.ToJson
import VoxelStore.Proofs.Settings.Fields
/-!
# Sections and settings through JSON text

Whatever has a JSON form that is found again survives being written out, since every JSON text is read back. Settings
need not be written as the store writes them: their members may stand in any order and in any spelling, among others
with unknown keys, and a member may be missing where it would say the default (`json_roundTrip`).
-/

namespace VoxelStore

namespace Settings

open Json (MemberText objectText)

theorem toJson_eq (c : Settings) :
    c.toJson = .object (Field.all.map fun f => (some f.key, .integer (c.get f))) := rfl

/-- An object holds the fields that have a member, whatever the order of its members and whatever else it has. -/
theorem holds_of_perm {c : Settings} {fields : List Field} {extra : List (String × Json)}
    {members : List (Option String × Json)} (hfields : fields.Nodup) (hextra : ∀ m ∈ extra, m.1 ∉ fieldNames)
    (hperm : members.Perm (fields.map (fun f => (some f.key, Json.integer (c.get f))) ++
      extra.map fun m => (some m.1, m.2))) :
    Holds (.object members) fun f => if f ∈ fields then some (c.get f) else none := by
  refine .object ?_ ?_ fun f => ?_
  · intro m hm
    rcases List.mem_append.1 (hperm.mem_iff.1 hm) with hm | hm
    · obtain ⟨f, -, rfl⟩ := List.mem_map.1 hm
      rfl
    · obtain ⟨m, -, rfl⟩ := List.mem_map.1 hm
      rfl
  · intro f n hn
    obtain ⟨-, hn⟩ := Option.ite_none_right_eq_some.1 hn
    cases hn
    exact c.inRange_get f
  · -- both sides have at most one value, so the order does not matter
    have hother : Json.valuesOf f.key (extra.map fun m => (some m.1, m.2)) = [] := by
      apply Json.valuesOf_of_not_mem
      intro m hm hkey
      obtain ⟨m, hmem, rfl⟩ := List.mem_map.1 hm
      have hknown : m.1 = f.key := Option.some.inj hkey
      have hnames : f.key ∈ fieldNames := List.mem_map_of_mem f.mem_all
      exact hextra m hmem (hknown ▸ hnames)
    have hvalues : (Json.valuesOf f.key members).Perm (if f ∈ fields then [.integer (c.get f)] else []) := by
      have hvalues := Json.valuesOf_perm hperm f.key
      rwa [Json.valuesOf_append, hother, List.append_nil,
        Json.valuesOf_map Field.key_injective (fun f => .integer (c.get f)) hfields] at hvalues
    by_cases hf : f ∈ fields
    · rw [if_pos hf] at hvalues ⊢
      exact List.perm_singleton.1 hvalues
    · rw [if_neg hf] at hvalues ⊢
      exact List.perm_nil.1 hvalues

theorem ofJson?_of_perm {c : Settings} {fields : List Field} {extra : List (String × Json)}
    {members : List (Option String × Json)} (hfields : fields.Nodup) (hdefault : ∀ f, f ∉ fields → c.get f = get {} f)
    (hextra : ∀ m ∈ extra, m.1 ∉ fieldNames)
    (hperm : members.Perm (fields.map (fun f => (some f.key, Json.integer (c.get f))) ++
      extra.map fun m => (some m.1, m.2))) :
    ofJson? (.object members) = some c := by
  refine ofJson?_eq_some.2 ⟨_, holds_of_perm hfields hextra hperm, fun f => ?_⟩
  by_cases hf : f ∈ fields
  · simp [hf]
  · simp [hf, hdefault f hf]

theorem ofJson?_toJson (c : Settings) : ofJson? c.toJson = some c := by
  have hperm : (Field.all.map fun f => (some f.key, Json.integer (c.get f))).Perm
      (Field.all.map (fun f => (some f.key, Json.integer (c.get f))) ++
        ([] : List (String × Json)).map fun m => (some m.1, m.2)) := by simp
  rw [toJson_eq]
  exact ofJson?_of_perm Field.nodup_all (fun f hf => absurd f.mem_all hf) (by simp) hperm

theorem ofText_of_read {c : Settings} {cs : List Char} {j : Json} (hvalid : c.Valid) (hread : Json.read? cs = some j)
    (hshape : ofJson? j = some c) : ofText (String.ofList cs) = .ok c := by
  rw [ofText, Json.readAs_ofList hread hshape]
  exact validate_eq_ok.2 ⟨hvalid, rfl⟩

end Settings

/-- Sections and settings survive JSON. Every section, of either kind, with any palette and any packed words, is read
back from the text that is written for it. Valid settings are read back from their text, and from the text of any
object that writes some of their fields and leaves out only defaults: in any order, in any spelling of keys and values,
and with unknown keys and whatever JSON behind them. -/
theorem json_roundTrip :
    (∀ s : PalettedSection, s.data.len < UInt64.size → s.data.bits < UInt64.size →
      Json.readAs PalettedSection.ofJson? s.toJson.print = .ok s) ∧
    ∀ c : Settings, c.Valid → Settings.ofText c.toJson.print = .ok c ∧
      ∀ (fields : List Settings.Field) (extra : List (String × Json)) (members : List Json.MemberText),
        fields.Nodup → (∀ f, f ∉ fields → c.get f = Settings.get {} f) →
        (∀ m ∈ extra, m.1 ∉ Settings.fieldNames) →
        (members.map Json.MemberText.member).Perm
          (fields.map (fun f => (some f.key, Json.integer (c.get f))) ++ extra.map fun m => (some m.1, m.2)) →
        Settings.ofText (String.ofList (Json.objectText members)) = .ok c := by
  refine ⟨fun s hlen hbits => ?_, fun c hvalid => ⟨?_, ?_⟩⟩
  · exact Json.readAs_ofList (Json.read?_text s.toJson) (PalettedSection.ofJson?_toJson hlen hbits)
  · exact Settings.ofText_of_read hvalid (Json.read?_text c.toJson) c.ofJson?_toJson
  · intro fields extra members hfields hdefault hextra hperm
    exact Settings.ofText_of_read hvalid (Json.read?_objectText members)
      (Settings.ofJson?_of_perm hfields hdefault hextra hperm)

/-- Words with the highest bit set in front of a palette of two states, and settings in an object that starts with an
unknown key, names the range before the pool, with an escape in the key, and leaves out what is the default. -/
theorem json_roundTrip_spelled :
    Json.readAs PalettedSection.ofJson? (PalettedSection.toJson {
      kind := .blocks
      palette := .indirect #[5, 0xFFFFFFFF]
      data := { len := 16, bits := 4, words := #[0xFFFFFFFFFFFFFFFF] }
      nonAir := 16 }).print = .ok {
        kind := .blocks
        palette := .indirect #[5, 0xFFFFFFFF]
        data := { len := 16, bits := 4, words := #[0xFFFFFFFFFFFFFFFF] }
        nonAir := 16 } ∧
    Settings.ofText "\x7b\"note\": [1.5e3, \x7b\x7d], \"initial_max_section\":3,\"p\\u006Fol_size\" : 8\x7d" =
      .ok { poolSize := 8, top := 3 } := by
  refine ⟨json_roundTrip.1 _ (by decide) (by decide), ?_⟩
  have hvalid : Settings.Valid { poolSize := 8, top := 3 } := Settings.problem?_eq_none.1 (by decide)
  let note : Json.MemberText := ⟨"\"note\"".toList, " [1.5e3, \x7b\x7d]".toList, some "note",
    .array [.real, .object []], rfl, rfl⟩
  let top : Json.MemberText := ⟨" \"initial_max_section\"".toList, "3".toList, some "initial_max_section",
    .integer 3, rfl, rfl⟩
  let pool : Json.MemberText := ⟨"\"p\\u006Fol_size\" ".toList, " 8".toList, some "pool_size", .integer 8, rfl, rfl⟩
  have hdefault : ∀ f : Settings.Field, f ∉ [.top, .poolSize] →
      Settings.get { poolSize := 8, top := 3 } f = Settings.get {} f := by
    intro f hf
    cases f <;> first | rfl | exact absurd (by decide) hf
  have hperm : ([note.member] ++ [top.member, pool.member]).Perm ([top.member, pool.member] ++ [note.member]) :=
    List.perm_append_comm
  exact (json_roundTrip.2 _ hvalid).2 [.top, .poolSize] [("note", .array [.real, .object []])] [note, top, pool]
    (by decide) hdefault (by decide) hperm

end VoxelStore
