import VoxelStore.Environment
import VoxelStore.Table
import VoxelStore.Text.Alphanumeric
import VoxelStore.Text.Blank
/-!
# Variables from a file

A `.env` file has one variable per line, `NAME=value`, with `export` in front if one likes. A value may
be quoted: between single quotes everything stands for itself, between double quotes a backslash escapes
and `$` refers to variables. A blank outside of quotes ends the value, and only a comment may follow.

`load` takes the lines one by one and sets each variable that is not set to a text already. It stops at
the first line that it cannot read; the lines before it count.
-/

namespace VoxelStore.DotEnv

/-- The values of the lines read so far, also of those whose variable was set before. -/
abbrev Seen := Table (List Char) (List Char)

/-- What a reference stands for: the variable if it is set to a text, and otherwise the value of an
earlier line. -/
def referent (env : Environment) (seen : Seen) (name : List Char) : List Char :=
  match env.lookup name with
  | .text value => value
  | .unset | .notText _ => (seen.find? name).getD []

/-- The part of a value that the reader is in. -/
inductive Part where
  | plain
  | singleQuoted
  | doubleQuoted
  deriving DecidableEq, Repr

/-- What the reader is in the middle of, inside a part. -/
inductive Pending where
  | nothing
  /-- A backslash was read. -/
  | escape
  /-- A reference without braces, with its name so far, the last character first. -/
  | reference (name : List Char)
  /-- A reference in braces, with its name so far, the last character first. -/
  | braced (name : List Char)
  deriving DecidableEq, Repr

/-- The state of the reader of a value. -/
structure ValueReader where
  part : Part := .plain
  pending : Pending := .nothing
  /-- The value so far, the last character first. -/
  output : List Char := []
  /-- The value has ended, and blanks or a comment follow. -/
  ended : Bool := false

namespace ValueReader

/-- The state with one more character of the value. -/
def push (r : ValueReader) (c : Char) : ValueReader := { r with output := c :: r.output }

/-- The state with a reference replaced by what it stands for. -/
def refer (r : ValueReader) (env : Environment) (seen : Seen) (name : List Char) : ValueReader :=
  { r with pending := .nothing, output := (referent env seen name.reverse).reverse ++ r.output }

/-- Reads a character with nothing pending. -/
def readPlainly (r : ValueReader) (c : Char) : ValueReader :=
  match r.part with
  | .singleQuoted => if c = '\'' then { r with part := .plain } else r.push c
  | .doubleQuoted =>
    if c = '$' then { r with pending := .reference [] }
    else if c = '"' then { r with part := .plain }
    else if c = '\\' then { r with pending := .escape }
    else r.push c
  | .plain =>
    if c = '$' then { r with pending := .reference [] }
    else if c = '\'' then { r with part := .singleQuoted }
    else if c = '"' then { r with part := .doubleQuoted }
    else if c = '\\' then { r with pending := .escape }
    else if c = ' ' ∨ c = '\t' then { r with ended := true }
    else r.push c

/-- Reads a character of a value that has not ended. A character that ends a reference belongs to the
value as it is, even a quote. -/
def read (env : Environment) (seen : Seen) (r : ValueReader) (c : Char) : Option ValueReader :=
  match r.pending with
  | .nothing => some (r.readPlainly c)
  | .escape =>
    if c = '\\' ∨ c = '\'' ∨ c = '"' ∨ c = '$' ∨ c = ' ' then some ({ r with pending := .nothing }.push c)
    else if c = 'n' then some ({ r with pending := .nothing }.push '\n')
    else none
  | .reference name =>
    if Text.isAlphanumeric c then some { r with pending := .reference (c :: name) }
    else if c = '\x7b' ∧ name = [] then some { r with pending := .braced [] }
    else if c = '$' then some { r.refer env seen name with pending := .reference [] }
    else some ((r.refer env seen name).push c)
  | .braced name =>
    if c = '\x7d' then some (r.refer env seen name)
    else some { r with pending := .braced (c :: name) }

/-- Reads the characters of a value up to the end of the line or a comment. -/
def readAll (env : Environment) (seen : Seen) : ValueReader → List Char → Option ValueReader
  | r, [] => some r
  | r, c :: cs =>
    if r.ended then
      if c = ' ' ∨ c = '\t' then readAll env seen r cs
      else if c = '#' then some r
      else none
    else do readAll env seen (← r.read env seen c) cs

/-- The value at the end of the line. Quotes and braces have to be closed by then. -/
def finish (env : Environment) (seen : Seen) (r : ValueReader) : Option (List Char) :=
  match r.part, r.pending with
  | .singleQuoted, _ | .doubleQuoted, _ | _, .braced _ => none
  | .plain, .reference name => some (r.refer env seen name).output.reverse
  | .plain, .nothing | .plain, .escape => some r.output.reverse

end ValueReader

/-- The value that the rest of a line gives. -/
def value? (env : Environment) (seen : Seen) (cs : List Char) : Option (List Char) := do
  (← ValueReader.readAll env seen {} cs).finish env seen

def startsName (c : Char) : Bool := c.isAlpha || c == '_'

def continuesName (c : Char) : Bool := c.isAlphanum || c == '_' || c == '.'

/-- The name at the start of a text, and the rest without leading blanks. -/
def name? (cs : List Char) : Option (List Char × List Char) :=
  match cs with
  | c :: _ =>
    if startsName c then some (cs.takeWhile continuesName, Text.trimStart (cs.dropWhile continuesName))
    else none
  | [] => none

/-- The rest of a text behind an equals sign. -/
def afterEquals? : List Char → Option (List Char)
  | '=' :: rest => some rest
  | _ => none

/-- The name of the variable of a line, and the rest behind the equals sign. The word `export` is a name
only if the equals sign follows it. -/
def target? (cs : List Char) : Option (List Char × List Char) := do
  let (name, rest) ← name? cs
  match afterEquals? rest with
  | some rest => return (name, rest)
  | none =>
    if name = "export".toList then
      let (name, rest) ← name? rest
      return (name, ← afterEquals? rest)
    else none

/-- Nothing is left of the line, or a comment. -/
def isBare (cs : List Char) : Bool :=
  match cs with
  | [] => true
  | c :: _ => c == '#'

/-- The variable that a line sets, none if it sets none. -/
def line? (env : Environment) (seen : Seen) (line : List Char) : Option (Option (List Char × List Char)) := do
  let cs := Text.trim line
  if isBare cs then return none
  let (name, rest) ← target? cs
  let rest := Text.trimStart rest
  if isBare rest then return some (name, [])
  return some (name, ← value? env seen rest)

/-- Sets a variable, unless it is set to a text already. -/
def setMissing (env : Environment) (name value : List Char) : Except Fault Environment :=
  match env.lookup name with
  | .text _ => .ok env
  | .unset | .notText _ => env.set name value

/-- Sets the variables of the lines, up to the first line that cannot be read. -/
def loadLines (env : Environment) (seen : Seen) : List (List UInt8) → Except Fault Environment
  | [] => .ok env
  | raw :: rest =>
    match Text.Utf8.decode? raw >>= line? env seen with
    | none => .ok env
    | some none => loadLines env seen rest
    | some (some (name, value)) => do
      loadLines (← setMissing env name value) (seen.insert name value) rest

def lines (content : List UInt8) : List (List UInt8) := content.splitOn 0x0A

/-- The environment with the variables that the content of a file sets. -/
def load (env : Environment) (content : List UInt8) : Except Fault Environment :=
  loadLines env {} (lines content)

end VoxelStore.DotEnv
