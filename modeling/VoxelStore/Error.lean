import VoxelStore.Palette.Kind
import VoxelStore.Settings.Problem
/-!
# Errors

What can be wrong with data and settings that come from outside. Every operation that reads such data
answers with one of these; broken preconditions are faults instead.
-/

namespace VoxelStore

/-- Why a file cannot be read. -/
inductive ReadProblem where
  | notFound
  | isDirectory
  | notADirectory
  | nameTooLong
  | notText
  | other (text : String)
  deriving DecidableEq, Repr

/-- The wording of a read problem, as the operating system gives it. -/
def ReadProblem.text : ReadProblem → String
  | notFound => "No such file or directory (os error 2)"
  | isDirectory => "Is a directory (os error 21)"
  | notADirectory => "Not a directory (os error 20)"
  | nameTooLong => "File name too long (os error 36)"
  | notText => "stream did not contain valid UTF-8"
  | other text => text

/-- Why a text is not the JSON form of a value. -/
inductive JsonProblem where
  /-- The text is no JSON. -/
  | malformed
  /-- The JSON has another shape than the value. -/
  | mismatched
  deriving DecidableEq, Repr

def JsonProblem.text : JsonProblem → String
  | malformed => "the text is not JSON"
  | mismatched => "the JSON has another shape"

/-- The errors of the store. -/
inductive StoreError where
  | invalidConfig (problem : SettingsProblem)
  /-- The packed words are too few or too many for the layout. -/
  | malformedSection (expected actual : Nat)
  | paletteIndexOutOfRange (index : UInt64) (len : Nat)
  | unknownHeightMap (name : String)
  | io (problem : ReadProblem)
  | json (problem : JsonProblem)
  /-- Fields wider than 32 bits. -/
  | fieldTooWide (bits : Nat)
  | entryOutOfRange (index len : Nat)
  /-- The values of this kind of section are no block states. -/
  | notBlocks (kind : PaletteKind)
  | other (text : String)
  deriving DecidableEq, Repr

namespace StoreError

def message : StoreError → String
  | invalidConfig problem => "Invalid config: " ++ problem.text
  | malformedSection expected actual => s!"Malformed section: expected {expected} words, got {actual}"
  | paletteIndexOutOfRange index len => s!"Palette index {index} out of range for palette of {len}"
  | unknownHeightMap name => "Unknown height map type: " ++ name
  | io problem => "IO error: " ++ problem.text
  | json problem => "JSON error: " ++ problem.text
  | fieldTooWide bits => s!"{bits} bits per value is too wide"
  | entryOutOfRange index len => s!"entry {index} out of range for {len} entries"
  | notBlocks kind => s!"cannot decode {kind.name} into block data"
  | other text => text

/-- The error passes on an error of another layer. -/
def hasSource : StoreError → Bool
  | io _ | json _ => true
  | _ => false

end StoreError

end VoxelStore
