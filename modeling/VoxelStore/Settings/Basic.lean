import VoxelStore.Error
import VoxelStore.Session
/-!
# Settings

The sizes that the store is told and does not choose itself. `validate` refuses settings that cannot work,
naming the first problem in the order of the fields.
-/

namespace VoxelStore

/-- The settings of a store. Every one has a default. -/
structure Settings where
  /-- How many idle edits the pool keeps. -/
  poolSize : UInt64 := 64
  /-- The size of the registry of block states. -/
  blockStates : UInt32 := 32768
  /-- The size of the registry of biomes. -/
  biomes : UInt32 := 64
  /-- The biome of cells that an edit leaves unset. -/
  defaultBiome : UInt16 := 0
  /-- The lowest layer of a fresh edit. -/
  bottom : Int32 := 0
  /-- The highest layer of a fresh edit. -/
  top : Int32 := 15
  deriving DecidableEq, Repr

namespace Settings

/-- The first problem of the settings, if there is one. -/
def problem? (s : Settings) : Option SettingsProblem :=
  if s.poolSize = 0 then some .poolTooSmall
  else if s.blockStates < 4 then some (.tooFewStates s.blockStates)
  else if s.biomes = 0 then some .noBiomes
  else if s.biomes ≤ s.defaultBiome.toUInt32 then some (.defaultBiomeOutside s.defaultBiome s.biomes)
  else if s.top < s.bottom then some (.rangeInverted s.bottom.toInt s.top.toInt)
  else none

/-- A range of more than 256 layers is allowed, but worth a warning. -/
def isTall (s : Settings) : Bool := 255 < s.top.toInt - s.bottom.toInt

/-- What is logged about settings that are accepted. -/
def warnings (s : Settings) : List Event :=
  if s.isTall then [.rangeUnusuallyTall s.bottom.toInt s.top.toInt] else []

def report (s : Settings) : Run Unit := s.warnings.forM Run.emit

def validate (s : Settings) : Except StoreError Settings :=
  match s.problem? with
  | some problem => .error (.invalidConfig problem)
  | none => .ok s

end Settings

end VoxelStore
