import VoxelStore.Fault
import VoxelStore.Text.Utf8
/-!
# Environment variables

The variables of a process, as entries `NAME=value`. Values are bytes, which need not be text. A variable
is found as the first entry that starts with its name and an equals sign, so a name with an equals sign in
it reaches into the value of another variable.
-/

namespace VoxelStore

/-- The entries of a process. -/
structure Environment where
  entries : List (List UInt8) := []
  deriving DecidableEq, Repr

/-- The value of a variable. -/
inductive Variable where
  | unset
  | text (value : List Char)
  /-- The bytes are no text. -/
  | notText (raw : List UInt8)
  deriving DecidableEq, Repr

namespace Environment

/-- How an entry of a variable starts. -/
def entryStart (name : List Char) : List UInt8 := Text.Utf8.encode name ++ [0x3D]

def entry (name : List Char) (value : List UInt8) : List UInt8 := entryStart name ++ value

/-- The value in an entry, if the entry is one of the variable. -/
def valueIn? (name : List Char) (e : List UInt8) : Option (List UInt8) :=
  if (entryStart name).isPrefixOf e then some (e.drop (entryStart name).length) else none

/-- The value of a variable. The empty name is the name of none. -/
def find? (env : Environment) (name : List Char) : Option (List UInt8) :=
  if name = [] then none else env.entries.findSome? (valueIn? name)

/-- Looks a variable up. -/
def lookup (env : Environment) (name : List Char) : Variable :=
  match env.find? name with
  | none => .unset
  | some raw =>
    match Text.Utf8.decode? raw with
    | some value => .text value
    | none => .notText raw

/-- The entries with another value for a variable: in the place of its first entry, or at the end. -/
def replace (name : List Char) (value : List UInt8) : List (List UInt8) → List (List UInt8)
  | [] => [entry name value]
  | e :: rest => if (valueIn? name e).isSome then entry name value :: rest else e :: replace name value rest

/-- Sets a variable. A zero byte ends an entry, so no value can hold one. -/
def set (env : Environment) (name value : List Char) : Except Fault Environment :=
  if '\x00' ∈ value then .error (.zeroInValue name)
  else .ok ⟨replace name (Text.Utf8.encode value) env.entries⟩

/-- The environment that a block of entries holds, each of which ends with a zero byte. -/
def ofBlock (block : List UInt8) : Environment := ⟨block.splitOn 0⟩

end Environment

end VoxelStore
