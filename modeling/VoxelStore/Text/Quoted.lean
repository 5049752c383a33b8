import VoxelStore.Text.Escaped
import VoxelStore.Text.Utf8
/-!
# Quoted text in messages

A message shows text from outside between double quotes, with everything escaped that would be invisible
or ambiguous there. Bytes that are no text are shown one by one.
-/

namespace VoxelStore.Text

def hex (n : Nat) : String := String.ofList (Nat.toDigits 16 n)

/-- How quoted text shows one character. -/
def escape (c : Char) : String :=
  if c = '\x00' then "\\0"
  else if c = '\t' then "\\t"
  else if c = '\r' then "\\r"
  else if c = '\n' then "\\n"
  else if c = '"' then "\\\""
  else if c = '\\' then "\\\\"
  else if isEscaped c then "\\u\x7b" ++ hex c.toNat ++ "\x7d"
  else c.toString

def quote (cs : List Char) : String :=
  "\"" ++ String.join (cs.map escape) ++ "\""

/-- How quoted bytes show a piece: a stray byte by two upper-case hexadecimal digits. -/
def escapePiece : Utf8.Piece → String
  | .char c => escape c
  | .stray b => "\\x" ++ (hex (b.toNat / 16)).toUpper ++ (hex (b.toNat % 16)).toUpper

def quoteBytes (bytes : List UInt8) : String :=
  "\"" ++ String.join ((Utf8.pieces bytes).map escapePiece) ++ "\""

end VoxelStore.Text
