import VoxelStore.DotEnv
import VoxelStore.Settings.Json
import VoxelStore.Text.Integer
/-!
# Settings from the environment

Settings come in layers. A file that a variable names gives the base, each field has a variable of its own
that goes first, and what neither gives has its default. The merged settings are validated at the end.
-/

namespace VoxelStore.Settings

def fileVariable : String := "CHUNKSTORE_CONFIG"

/-- The number in a variable, if it is set. Blanks around the number do not matter. -/
def numberIn (env : Environment) (key : String) (number? : List Char → Option α) :
    Except StoreError (Option α) :=
  match env.lookup key.toList with
  | .unset => .ok none
  | .notText raw => .error (.invalidConfig (.notUnicode key raw))
  | .text raw =>
    match number? (Text.trim raw) with
    | some a => .ok (some a)
    | none => .error (.invalidConfig (.unreadable key raw))

def fileText (readFile : List Char → Except ReadProblem (List UInt8)) (path : List Char) :
    Except StoreError String :=
  match readFile path with
  | .error problem => .error (.io problem)
  | .ok bytes =>
    match Text.Utf8.decode? bytes with
    | some cs => .ok (String.ofList cs)
    | none => .error (.io .notText)

/-- The path of the file that the environment names. -/
def filePath? (env : Environment) : Option (List Char) :=
  match env.lookup fileVariable.toList with
  | .text path => some path
  | .unset | .notText _ => none

/-- The base: what the file says that the environment names, and the defaults if it names none. -/
def base (env : Environment) (readFile : List Char → Except ReadProblem (List UInt8)) :
    Except StoreError Settings :=
  match env.lookup fileVariable.toList with
  | .unset => .ok {}
  | .notText raw => .error (.invalidConfig (.notUnicode fileVariable raw))
  | .text path => do Json.readAs ofJson? (← fileText readFile path)

/-- The settings before they are validated. -/
def merged (env : Environment) (readFile : List Char → Except ReadProblem (List UInt8)) :
    Except StoreError Settings := do
  let s ← base env readFile
  let poolSize ← numberIn env "CHUNKSTORE_POOL_SIZE" (Text.natBelow? UInt64.size)
  let blockStates ← numberIn env "CHUNKSTORE_BLOCK_STATES" (Text.natBelow? UInt32.size)
  let biomes ← numberIn env "CHUNKSTORE_BIOMES" (Text.natBelow? UInt32.size)
  let defaultBiome ← numberIn env "CHUNKSTORE_DEFAULT_BIOME" (Text.natBelow? UInt16.size)
  let bottom ← numberIn env "CHUNKSTORE_MIN_SECTION" (Text.int? (-0x80000000) 0x7FFFFFFF)
  let top ← numberIn env "CHUNKSTORE_MAX_SECTION" (Text.int? (-0x80000000) 0x7FFFFFFF)
  return {
    poolSize := (poolSize.map UInt64.ofNat).getD s.poolSize
    blockStates := (blockStates.map UInt32.ofNat).getD s.blockStates
    biomes := (biomes.map UInt32.ofNat).getD s.biomes
    defaultBiome := (defaultBiome.map UInt16.ofNat).getD s.defaultBiome
    bottom := (bottom.map Int32.ofInt).getD s.bottom
    top := (top.map Int32.ofInt).getD s.top }

/-- The settings that the environment gives, if they have no problem. -/
def ofEnvironment (env : Environment) (readFile : List Char → Except ReadProblem (List UInt8)) :
    Except StoreError Settings := do
  (← merged env readFile).validate

/-- The environment with the variables of the `.env` file, if there is one. -/
def withFile (env : Environment) (dotEnv : Option (List UInt8)) : Except Fault Environment :=
  match dotEnv with
  | some content => DotEnv.load env content
  | none => .ok env

end VoxelStore.Settings
