/-!
# Integers in text

Decimal integers as people write them in variables: digits with an optional sign. A number without a sign
of its own type takes a plus only.
-/

namespace VoxelStore.Text

def digit? (c : Char) : Option Nat :=
  if '0' ≤ c ∧ c ≤ '9' then some (c.toNat - '0'.toNat) else none

/-- The value of a text of one digit or more. -/
def digits? : List Char → Option Nat
  | [] => none
  | cs => cs.foldlM (fun n c => return n * 10 + (← digit? c)) 0

/-- The natural number below `bound` in a text. -/
def natBelow? (bound : Nat) (cs : List Char) : Option Nat := do
  let n ← digits? (match cs with
    | '+' :: rest => rest
    | _ => cs)
  if n < bound then some n else none

/-- The integer from `least` to `greatest` in a text. -/
def int? (least greatest : Int) (cs : List Char) : Option Int := do
  let n ← match cs with
    | '-' :: rest => (fun n : Nat => -(n : Int)) <$> digits? rest
    | '+' :: rest => Int.ofNat <$> digits? rest
    | _ => Int.ofNat <$> digits? cs
  if least ≤ n ∧ n ≤ greatest then some n else none

end VoxelStore.Text
