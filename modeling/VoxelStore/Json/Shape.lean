import VoxelStore.Json.Reader
/-!
# The shape of JSON values

Typed access to a JSON tree. A record is an object of its fields in any order, in which other keys are
allowed but no field stands twice, or an array of the fields in their order. A case of a choice is its
name, or an object whose only key is that name.
-/

namespace VoxelStore.Json

def int? (least greatest : Int) : Json → Option Int
  | integer n => if least ≤ n ∧ n ≤ greatest then some n else none
  | _ => none

def natBelow? (bound : Nat) (j : Json) : Option Nat := Int.toNat <$> j.int? 0 (bound - 1)

def uint64? (j : Json) : Option UInt64 := UInt64.ofNat <$> j.natBelow? UInt64.size

def uint32? (j : Json) : Option UInt32 := UInt32.ofNat <$> j.natBelow? UInt32.size

def uint16? (j : Json) : Option UInt16 := UInt16.ofNat <$> j.natBelow? UInt16.size

def uint8? (j : Json) : Option UInt8 := UInt8.ofNat <$> j.natBelow? UInt8.size

def signed32? (j : Json) : Option Int := j.int? (-0x80000000) 0x7FFFFFFF

def list? (item? : Json → Option α) : Json → Option (List α)
  | array items => items.mapM item?
  | _ => none

/-- The values of the members with the given key. -/
def valuesOf (key : String) (members : List (Option String × Json)) : List Json :=
  members.filterMap fun (k, v) => if k = some key then some v else none

/-- The value of the only member with the given key, if there is one. -/
def field? (key : String) (members : List (Option String × Json)) : Option (Option Json) :=
  match valuesOf key members with
  | [] => some none
  | [v] => some (some v)
  | _ :: _ :: _ => none

/-- The values of the named fields of a record, each unless it is missing. -/
def fields? (names : List String) : Json → Option (List (Option Json))
  | array items =>
    if items.length ≤ names.length then
      some (items.map some ++ List.replicate (names.length - items.length) none)
    else none
  | object members =>
    if members.all (·.1.isSome) then names.mapM (field? · members) else none
  | _ => none

/-- A case of a choice: its name, and the value behind the name if there is one. -/
def case? : Json → Option (String × Option Json)
  | string (some name) => some (name, none)
  | object [(some name, value)] => some (name, some value)
  | _ => none

/-- A case without content: its name alone, or with null behind it. -/
def plainCase? (j : Json) : Option String :=
  match j.case? with
  | some (name, none) | some (name, some .null) => some name
  | _ => none

/-- What a shape finds in a text. -/
def readAs (shape : Json → Option α) (s : String) : Except StoreError α := do
  match shape (← read s) with
  | some a => .ok a
  | none => .error (.json .mismatched)

end VoxelStore.Json
