import VoxelStore.Json.Shape
import VoxelStore.Settings.Basic
/-!
# JSON of settings

Settings as a record. A field that is missing has its default.
-/

namespace VoxelStore.Settings

def fieldNames : List String :=
  ["pool_size", "block_state_count", "biome_count", "default_biome", "initial_min_section",
    "initial_max_section"]

def toJson (s : Settings) : Json :=
  .record [("pool_size", .nat s.poolSize.toNat), ("block_state_count", .nat s.blockStates.toNat),
    ("biome_count", .nat s.biomes.toNat), ("default_biome", .nat s.defaultBiome.toNat),
    ("initial_min_section", .integer s.bottom.toInt), ("initial_max_section", .integer s.top.toInt)]

/-- The value of a field: the default if the field is missing, and none if it does not have the shape. -/
def fieldOr (default : α) (shape : Json → Option α) : Option Json → Option α
  | some j => shape j
  | none => some default

def ofJson? (j : Json) : Option Settings := do
  let base : Settings := {}
  match ← j.fields? fieldNames with
  | [poolSize, blockStates, biomes, defaultBiome, bottom, top] =>
    return {
      poolSize := ← fieldOr base.poolSize Json.uint64? poolSize
      blockStates := ← fieldOr base.blockStates Json.uint32? blockStates
      biomes := ← fieldOr base.biomes Json.uint32? biomes
      defaultBiome := ← fieldOr base.defaultBiome Json.uint16? defaultBiome
      bottom := ← fieldOr base.bottom (fun j => Int32.ofInt <$> j.signed32?) bottom
      top := ← fieldOr base.top (fun j => Int32.ofInt <$> j.signed32?) top }
  | _ => none

/-- The settings that a text holds, if they have no problem. -/
def ofText (s : String) : Except StoreError Settings := do
  (← Json.readAs ofJson? s).validate

end VoxelStore.Settings
