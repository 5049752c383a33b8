import VoxelStore.Text.Quoted
/-!
# What can be wrong with settings

The reasons for which settings are refused, each with its wording.
-/

namespace VoxelStore

/-- A reason to refuse settings. -/
inductive SettingsProblem where
  /-- The pool would keep nothing. -/
  | poolTooSmall
  /-- The registry lacks some of the ordinals that every registry has. -/
  | tooFewStates (states : UInt32)
  | noBiomes
  | defaultBiomeOutside (biome : UInt16) (biomes : UInt32)
  | rangeInverted (bottom top : Int)
  /-- The value of a variable is not of the type its setting has. -/
  | unreadable (key : String) (raw : List Char)
  /-- The value of a variable is no text. -/
  | notUnicode (key : String) (raw : List UInt8)
  /-- The demonstration run has no block state of its own to place. -/
  | onlyAir
  | other (text : String)
  deriving DecidableEq, Repr

def SettingsProblem.text : SettingsProblem → String
  | poolTooSmall => "pool_size must be at least 1"
  | tooFewStates states => s!"block_state_count {states} is smaller than the reserved ordinals"
  | noBiomes => "biome_count must be at least 1"
  | defaultBiomeOutside biome biomes => s!"default_biome {biome} is outside the registry of {biomes}"
  | rangeInverted bottom top => s!"section range {bottom}..={top} is inverted"
  | unreadable key raw => key ++ "=" ++ Text.quote raw ++ " cannot be parsed"
  | notUnicode key raw => key ++ ": environment variable was not valid unicode: " ++ Text.quoteBytes raw
  | onlyAir => "the demo needs at least one block state besides the air family"
  | other text => text

end VoxelStore
