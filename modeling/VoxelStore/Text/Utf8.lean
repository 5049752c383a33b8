/-!
# UTF-8

`pieces` cuts bytes into characters and bytes that belong to none. `decode?` reads bytes as text when there
is no stray byte among them.
-/

namespace VoxelStore.Text.Utf8

/-- One step through a byte sequence. -/
inductive Piece where
  | char (c : Char)
  /-- A byte that is part of no character. -/
  | stray (b : UInt8)
  deriving DecidableEq, Repr

/-- The character announced by the byte `first`: the number of bytes that follow it, the bits that `first`
contributes, and the least code point that needs this many bytes. -/
def lead (first : UInt8) : Option (Nat × Nat × Nat) :=
  let n := first.toNat
  if n < 0x80 then some (0, n, 0)
  else if n < 0xC0 then none
  else if n < 0xE0 then some (1, n - 0xC0, 0x80)
  else if n < 0xF0 then some (2, n - 0xE0, 0x800)
  else if n < 0xF8 then some (3, n - 0xF0, 0x10000)
  else none

/-- The byte continues a character. -/
def isTail (b : UInt8) : Bool := 0x80 ≤ b && b < 0xC0

/-- The character that starts with `first` and goes on in `rest`, with the number of bytes it takes
from `rest`. Overlong forms, surrogates and numbers above the last code point are no characters. -/
def char? (first : UInt8) (rest : List UInt8) : Option (Char × Nat) := do
  let (count, bits, least) ← lead first
  let tail := rest.take count
  guard (tail.length = count ∧ tail.all isTail)
  let code := tail.foldl (fun n b => n * 64 + (b.toNat - 0x80)) bits
  if h : code.isValidChar then
    guard (least ≤ code)
    return (Char.ofNatAux code h, count)
  else none

/-- The bytes cut into characters and stray bytes, in order. -/
def pieces : List UInt8 → List Piece
  | [] => []
  | b :: rest =>
    match char? b rest with
    | some (c, count) => .char c :: pieces (rest.drop count)
    | none => .stray b :: pieces rest
  termination_by bytes => bytes.length
  decreasing_by
    · simp only [List.length_drop, List.length_cons]; omega
    · simp

def Piece.char? : Piece → Option Char
  | .char c => some c
  | .stray _ => none

/-- The bytes read as text, unless one of them is stray. -/
def decode? (bytes : List UInt8) : Option (List Char) := (pieces bytes).mapM Piece.char?

def encode (cs : List Char) : List UInt8 := cs.flatMap String.utf8EncodeChar

end VoxelStore.Text.Utf8
