import VoxelStore.Geometry
import VoxelStore.HeightMap
import VoxelStore.Json.Shape
import VoxelStore.Tag
/-!
# JSON of positions, tags and height maps

A position is a record of its coordinates, a tag the list of its bytes, a height map its name in capitals.
-/

namespace VoxelStore

namespace Position

def toJson (p : Position) : Json := .record [("x", .integer p.x), ("y", .integer p.y), ("z", .integer p.z)]

def ofJson? (j : Json) : Option Position := do
  match ← j.fields? ["x", "y", "z"] with
  | [some x, some y, some z] => return ⟨← x.signed32?, ← y.signed32?, ← z.signed32?⟩
  | _ => none

end Position

namespace Tag

def toJson (t : Tag) : Json := .nats (t.bytes.map UInt8.toNat)

def ofJson? (j : Json) : Option Tag := Tag.mk <$> j.list? Json.uint8?

end Tag

namespace HeightMap

def toJson (m : HeightMap) : Json := .name m.name

/-- The height map in a JSON value. Its name has to be in capitals here. -/
def ofJson? (j : Json) : Option HeightMap := do
  let name ← j.plainCase?
  all.find? (·.name = name)

end HeightMap

end VoxelStore
