/-!
# JSON values

The JSON that the store reads and writes, as a tree, and its compact text.

Two kinds of value carry less than their text. A number with a fraction or an exponent, and minus zero,
is `real`: the store reads integers only. A string in which an escape names half of a surrogate pair is no
text, so its content is none.
-/

namespace VoxelStore

/-- A JSON value. -/
inductive Json where
  | null
  | bool (b : Bool)
  | integer (n : Int)
  | real
  | string (text : Option String)
  | array (items : List Json)
  | object (members : List (Option String × Json))
  deriving Repr

namespace Json

/-- The digits of `n`, the highest first. -/
def digits (n : Nat) : List Char :=
  if n < 10 then [Char.ofNat (48 + n)] else digits (n / 10) ++ [Char.ofNat (48 + n % 10)]

def hexDigit (n : Nat) : Char :=
  if n < 10 then Char.ofNat (48 + n) else Char.ofNat (87 + n)

/-- How a string literal holds one character. -/
def escape (c : Char) : List Char :=
  if c = '"' then ['\\', '"']
  else if c = '\\' then ['\\', '\\']
  else if c.toNat < 32 then ['\\', 'u', '0', '0', hexDigit (c.toNat / 16), hexDigit (c.toNat % 16)]
  else [c]

/-- A string literal. Half of a surrogate pair stands for a string that is no text. -/
def literal : Option String → List Char
  | some text => '"' :: text.toList.flatMap escape ++ ['"']
  | none => "\"\\ud800\"".toList

mutual

/-- The compact text of a value. -/
def text : Json → List Char
  | null => "null".toList
  | bool true => "true".toList
  | bool false => "false".toList
  | integer (.ofNat n) => digits n
  | integer (.negSucc n) => '-' :: digits (n + 1)
  | real => "-0".toList
  | string s => literal s
  | array items => '[' :: itemTexts items ++ [']']
  | object members => '{' :: memberTexts members ++ ['}']

/-- The texts of the items of an array, with commas between them. -/
def itemTexts : List Json → List Char
  | [] => []
  | [item] => item.text
  | item :: rest => item.text ++ ',' :: itemTexts rest

/-- The texts of the members of an object, with commas between them. -/
def memberTexts : List (Option String × Json) → List Char
  | [] => []
  | [(key, value)] => literal key ++ ':' :: value.text
  | (key, value) :: rest => literal key ++ ':' :: value.text ++ ',' :: memberTexts rest

end

/-- The compact text of a value as a string. -/
def print (j : Json) : String := String.ofList j.text

def record (fields : List (String × Json)) : Json :=
  object (fields.map fun (name, value) => (some name, value))

def name (s : String) : Json := string (some s)

def nat (n : Nat) : Json := integer n

def nats (ns : List Nat) : Json := array (ns.map nat)

end Json

end VoxelStore
