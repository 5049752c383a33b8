import VoxelStore.Palette.Json
import VoxelStore.Proofs.Json.Shape
/-!
# Sections in JSON

The JSON form of a section is the form of its parts. Each is found again where it was put: the words of a packed array
as numbers of up to 64 bits, the shapes of a palette by their names (`PalettedSection.ofJson?_toJson`).
-/

namespace VoxelStore

theorem Packed.ofJson?_toJson {a : Packed} (hlen : a.len < UInt64.size) (hbits : a.bits < UInt64.size) :
    ofJson? a.toJson = some a := by
  have hfields : a.toJson.fields? ["len", "bits_per_value", "data"] =
      some [some (.nat a.len), some (.nat a.bits), some (.nats (a.words.toList.map UInt64.toNat))] := rfl
  have hwords := Json.list?_nats (fun _ => Json.uint64?_eq_some.2 rfl) a.words.toList
  simp [ofJson?, hfields, Json.natBelow?_eq_some.2 ⟨rfl, hlen⟩, Json.natBelow?_eq_some.2 ⟨rfl, hbits⟩, hwords]

theorem PaletteKind.ofJson?_toJson (kind : PaletteKind) : ofJson? kind.toJson = some kind := by
  cases kind <;> rfl

theorem Palette.ofJson?_toJson (p : Palette) : ofJson? p.toJson = some p := by
  cases p with
  | single value =>
    show single <$> (Json.nat value.toNat).uint32? = _
    rw [Json.uint32?_eq_some.2 rfl]
    rfl
  | indirect values =>
    show (indirect ·.toArray) <$> (Json.nats (values.toList.map UInt32.toNat)).list? Json.uint32? = _
    rw [Json.list?_nats (fun _ => Json.uint32?_eq_some.2 rfl)]
    rfl
  | global => rfl

namespace PalettedSection

variable {s : PalettedSection}

theorem ofJson?_toJson (hlen : s.data.len < UInt64.size) (hbits : s.data.bits < UInt64.size) :
    ofJson? s.toJson = some s := by
  have hfields : s.toJson.fields? ["kind", "palette", "data", "non_air_blocks"] =
      some [some s.kind.toJson, some s.palette.toJson, some s.data.toJson, some (.nat s.nonAir.toNat)] := rfl
  have hnonAir : (Json.nat s.nonAir.toNat).uint16? = some s.nonAir := Json.uint16?_eq_some.2 rfl
  simp [ofJson?, hfields, PaletteKind.ofJson?_toJson, Palette.ofJson?_toJson, Packed.ofJson?_toJson hlen hbits, hnonAir]

end PalettedSection

end VoxelStore
