import VoxelStore.Json.Basic
/-!
# JSON tokens

A machine that reads a text character by character and gives its tokens. `Lexer.step` reads one character;
`Lexer.finish` is told that the text has ended. A number ends only where the next character cannot belong
to it, so one character may complete a number and be a token itself.
-/

namespace VoxelStore.Json

/-- A token: punctuation, or a value without parts. -/
inductive Token where
  | openArray
  | closeArray
  | openObject
  | closeObject
  | comma
  | colon
  | scalar (value : Json)
  deriving Repr

/-- How far a number has been read. -/
inductive NumberPart where
  /-- The sign, so that a digit has to follow. -/
  | sign
  /-- A zero in front, so that no other digit may follow. -/
  | zero
  | whole
  /-- The decimal point, so that a digit has to follow. -/
  | point
  | fraction
  /-- The exponent mark, so that a sign or a digit has to follow. -/
  | mark
  /-- The sign of the exponent, so that a digit has to follow. -/
  | markSign
  | exponent
  deriving DecidableEq, Repr

/-- What the machine is in the middle of. -/
inductive Lexer where
  /-- Between tokens. -/
  | between
  /-- A word, with the letters that are missing. -/
  | word (missing : List Char) (value : Json)
  /-- A number, with its sign and the value of the digits so far. -/
  | number (negative : Bool) (value : Nat) (part : NumberPart)
  /-- A string, with its code units so far, the last first. -/
  | string (units : List Nat)
  /-- A string, behind a backslash. -/
  | escape (units : List Nat)
  /-- A string, inside a numbered escape of which `missing + 1` digits are missing. -/
  | code (units : List Nat) (value missing : Nat)
  deriving Repr

def digit? (c : Char) : Option Nat :=
  if '0' ≤ c ∧ c ≤ '9' then some (c.toNat - 48) else none

def hexDigit? (c : Char) : Option Nat :=
  if '0' ≤ c ∧ c ≤ '9' then some (c.toNat - 48)
  else if 'a' ≤ c ∧ c ≤ 'f' then some (c.toNat - 87)
  else if 'A' ≤ c ∧ c ≤ 'F' then some (c.toNat - 55)
  else none

/-- The code units as text. A high surrogate has to be followed by a low one, and the two are one
character; only escapes name surrogates. -/
def ofUnits : List Nat → Option (List Char)
  | [] => some []
  | high :: low :: rest =>
    if 0xD800 ≤ high ∧ high < 0xDC00 then
      if 0xDC00 ≤ low ∧ low < 0xE000 then
        (ofUnits rest).map (Char.ofNat (0x10000 + (high - 0xD800) * 0x400 + (low - 0xDC00)) :: ·)
      else none
    else if 0xDC00 ≤ high ∧ high < 0xE000 then none
    else (ofUnits (low :: rest)).map (Char.ofNat high :: ·)
  | [unit] => if 0xD800 ≤ unit ∧ unit < 0xE000 then none else some [Char.ofNat unit]

namespace Lexer

def isBlank (c : Char) : Bool := c == ' ' || c == '\t' || c == '\n' || c == '\r'

/-- The state after a character between tokens, and the token that it is. -/
def start (c : Char) : Option (Lexer × List Token) :=
  if isBlank c then some (between, [])
  else if c = '[' then some (between, [.openArray])
  else if c = ']' then some (between, [.closeArray])
  else if c = '{' then some (between, [.openObject])
  else if c = '}' then some (between, [.closeObject])
  else if c = ',' then some (between, [.comma])
  else if c = ':' then some (between, [.colon])
  else if c = '"' then some (string [], [])
  else if c = '-' then some (number true 0 .sign, [])
  else if c = 'n' then some (word ['u', 'l', 'l'] .null, [])
  else if c = 't' then some (word ['r', 'u', 'e'] (.bool true), [])
  else if c = 'f' then some (word ['a', 'l', 's', 'e'] (.bool false), [])
  else match digit? c with
    | some 0 => some (number false 0 .zero, [])
    | some d => some (number false d .whole, [])
    | none => none

/-- The value of a number that ends after the given part. -/
def ended (negative : Bool) (value : Nat) : NumberPart → Option Json
  | .zero => some (if negative then .real else .integer 0)
  | .whole => some (.integer (if negative then -value else value))
  | .fraction | .exponent => some .real
  | .sign | .point | .mark | .markSign => none

/-- The state inside a number after a character that belongs to it. -/
def number? (negative : Bool) (value : Nat) (c : Char) : NumberPart → Option Lexer
  | .sign =>
    match digit? c with
    | some 0 => some (number negative 0 .zero)
    | some d => some (number negative d .whole)
    | none => none
  | .zero =>
    if c = '.' then some (number negative value .point)
    else if c = 'e' ∨ c = 'E' then some (number negative value .mark)
    else none
  | .whole =>
    match digit? c with
    | some d => some (number negative (value * 10 + d) .whole)
    | none =>
      if c = '.' then some (number negative value .point)
      else if c = 'e' ∨ c = 'E' then some (number negative value .mark)
      else none
  | .point => (digit? c).map fun _ => number negative value .fraction
  | .fraction =>
    if c = 'e' ∨ c = 'E' then some (number negative value .mark)
    else (digit? c).map fun _ => number negative value .fraction
  | .mark =>
    if c = '+' ∨ c = '-' then some (number negative value .markSign)
    else (digit? c).map fun _ => number negative value .exponent
  | .markSign | .exponent => (digit? c).map fun _ => number negative value .exponent

/-- The character that an escape of two characters stands for. -/
def escaped? (c : Char) : Option Char :=
  if c = '"' ∨ c = '\\' ∨ c = '/' then some c
  else if c = 'b' then some '\x08'
  else if c = 'f' then some '\x0c'
  else if c = 'n' then some '\n'
  else if c = 'r' then some '\r'
  else if c = 't' then some '\t'
  else none

/-- Reads one character: the state after it, and the tokens that it completes. -/
def step : Lexer → Char → Option (Lexer × List Token)
  | between, c => start c
  | word [] value, c => do
    let (s, tokens) ← start c
    return (s, .scalar value :: tokens)
  | word (expected :: missing) value, c => if c = expected then some (word missing value, []) else none
  | number negative value part, c =>
    match number? negative value c part with
    | some s => some (s, [])
    | none => do
      let value ← ended negative value part
      let (s, tokens) ← start c
      return (s, .scalar value :: tokens)
  | string units, c =>
    if c = '"' then some (between, [.scalar (.string ((ofUnits units.reverse).map String.ofList))])
    else if c = '\\' then some (escape units, [])
    else if c.toNat < 32 then none
    else some (string (c.toNat :: units), [])
  | escape units, c =>
    if c = 'u' then some (code units 0 3, [])
    else (escaped? c).map fun c => (string (c.toNat :: units), [])
  | code units value missing, c => do
    let value := value * 16 + (← hexDigit? c)
    match missing with
    | 0 => return (string (value :: units), [])
    | missing + 1 => return (code units value missing, [])

/-- The tokens that the end of the text completes. -/
def finish : Lexer → Option (List Token)
  | between => some []
  | word [] value => some [.scalar value]
  | number negative value part => do return [.scalar (← ended negative value part)]
  | word (_ :: _) _ | string _ | escape _ | code .. => none

end Lexer

end VoxelStore.Json
