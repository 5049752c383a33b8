import VoxelStore.Json.Shape
import VoxelStore.Palette.Section
/-!
# JSON of sections

The JSON form of packed values and of paletted sections. Reading checks the shape only: the words need not
match the length and the width.
-/

namespace VoxelStore

namespace Packed

def toJson (a : Packed) : Json :=
  .record [("len", .nat a.len), ("bits_per_value", .nat a.bits),
    ("data", .nats (a.words.toList.map UInt64.toNat))]

def ofJson? (j : Json) : Option Packed := do
  match ← j.fields? ["len", "bits_per_value", "data"] with
  | [some len, some bits, some words] =>
    return {
      len := ← len.natBelow? UInt64.size
      bits := ← bits.natBelow? UInt64.size
      words := (← words.list? Json.uint64?).toArray }
  | _ => none

end Packed

namespace PaletteKind

def toJson (kind : PaletteKind) : Json := .name kind.name

def ofJson? (j : Json) : Option PaletteKind := do
  match ← j.plainCase? with
  | "Blocks" => return blocks
  | "Biomes" => return biomes
  | _ => none

end PaletteKind

namespace Palette

def toJson : Palette → Json
  | single value => .record [("Single", .nat value.toNat)]
  | indirect values => .record [("Indirect", .nats (values.toList.map UInt32.toNat))]
  | global => .name "Global"

def ofJson? (j : Json) : Option Palette := do
  match ← j.case? with
  | ("Single", some value) => single <$> value.uint32?
  | ("Indirect", some values) => (indirect ·.toArray) <$> values.list? Json.uint32?
  | ("Global", none) | ("Global", some .null) => return global
  | _ => none

end Palette

namespace PalettedSection

def toJson (s : PalettedSection) : Json :=
  .record [("kind", s.kind.toJson), ("palette", s.palette.toJson), ("data", s.data.toJson),
    ("non_air_blocks", .nat s.nonAir.toNat)]

def ofJson? (j : Json) : Option PalettedSection := do
  match ← j.fields? ["kind", "palette", "data", "non_air_blocks"] with
  | [some kind, some palette, some data, some nonAir] =>
    return {
      kind := ← PaletteKind.ofJson? kind
      palette := ← Palette.ofJson? palette
      data := ← Packed.ofJson? data
      nonAir := ← nonAir.uint16? }
  | _ => none

end PalettedSection

end VoxelStore
