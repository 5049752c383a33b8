import VoxelStore.Error
import VoxelStore.Json.Token
/-!
# Reading JSON

A machine with a stack of the arrays and objects that are open. It takes one token at a time, so that
values may be nested to any depth. `Json.read` gives the value of a whole text.
-/

namespace VoxelStore.Json

/-- A container that is still open, with its parts so far, the last first. -/
inductive Frame where
  | array (before : List Json)
  | object (before : List (Option String × Json))
  /-- The key of the value that is being read, on top of its object. -/
  | key (text : Option String)
  deriving Repr

/-- What has to come next. -/
inductive Expected where
  | value
  /-- A value, or the end of an array without items. -/
  | item
  /-- A key, or the end of an object without members. -/
  | member
  | key
  /-- The colon behind a key. -/
  | colon (key : Option String)
  /-- Whatever may follow this value. -/
  | done (value : Json)
  deriving Repr

/-- The state of the reader: what has to come next, and the open containers, the innermost first. -/
structure Reader where
  lexer : Lexer := .between
  expected : Expected := .value
  frames : List Frame := []
  deriving Repr

namespace Reader

/-- Takes a token where a value may start. -/
def value (r : Reader) : Token → Option Reader
  | .scalar v => some { r with expected := .done v }
  | .openArray => some { r with expected := .item, frames := .array [] :: r.frames }
  | .openObject => some { r with expected := .member, frames := .object [] :: r.frames }
  | .closeArray | .closeObject | .comma | .colon => none

/-- Takes a token where a key has to stand. -/
def key (r : Reader) : Token → Option Reader
  | .scalar (.string text) => some { r with expected := .colon text }
  | _ => none

/-- Takes a token behind the value `v`. -/
def after (r : Reader) (v : Json) (t : Token) : Option Reader :=
  match r.frames, t with
  | .array before :: frames, .comma =>
    some { r with expected := .value, frames := .array (v :: before) :: frames }
  | .array before :: frames, .closeArray =>
    some { r with expected := .done (.array (v :: before).reverse), frames }
  | .key k :: .object before :: frames, .comma =>
    some { r with expected := .key, frames := .object ((k, v) :: before) :: frames }
  | .key k :: .object before :: frames, .closeObject =>
    some { r with expected := .done (.object ((k, v) :: before).reverse), frames }
  | _, _ => none

def take (r : Reader) (t : Token) : Option Reader :=
  match r.expected with
  | .value => r.value t
  | .item =>
    match t, r.frames with
    | .closeArray, .array _ :: frames => some { r with expected := .done (.array []), frames }
    | t, _ => r.value t
  | .member =>
    match t, r.frames with
    | .closeObject, .object _ :: frames => some { r with expected := .done (.object []), frames }
    | t, _ => r.key t
  | .key => r.key t
  | .colon k =>
    match t with
    | .colon => some { r with expected := .value, frames := .key k :: r.frames }
    | _ => none
  | .done v => r.after v t

def step (r : Reader) (c : Char) : Option Reader := do
  let (lexer, tokens) ← r.lexer.step c
  tokens.foldlM take { r with lexer }

/-- The value of the text that ends here. -/
def finish (r : Reader) : Option Json := do
  let r ← (← r.lexer.finish).foldlM take r
  match r.expected, r.frames with
  | .done v, [] => some v
  | _, _ => none

end Reader

def read? (cs : List Char) : Option Json := do (← cs.foldlM Reader.step {}).finish

/-- The value of a text, or the error that it is no JSON. -/
def read (s : String) : Except StoreError Json :=
  match read? s.toList with
  | some j => .ok j
  | none => .error (.json .malformed)

end VoxelStore.Json
