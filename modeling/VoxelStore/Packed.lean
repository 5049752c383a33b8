import VoxelStore.Error
import VoxelStore.Fault
/-!
# Packed values

Unsigned values of one width, packed into 64-bit words with the lowest bits first. No value spans two
words: a word holds as many whole values as fit, and the bits above them stay zero. Width zero stores
nothing, and every value then reads as zero.

`packInto` writes whole words from a list of values; `get` and `set` address one value by division and
remainder.
-/

namespace VoxelStore

/-- `len` values of `bits` bits each. A value read from JSON may have words that do not match the layout,
or too few of them; access to a missing word is then a fault. -/
structure Packed where
  len : Nat
  bits : Nat
  words : Array UInt64
  deriving DecidableEq, Repr

namespace Packed

/-- The number of values in one word. None fit at width zero or above 64. -/
def perWord (bits : Nat) : Nat := 64 / bits

/-- The number of words for `len` values: the last one may be partly filled. Where a word holds no value,
no word is needed. -/
def wordsNeeded (len bits : Nat) : Nat := (len + perWord bits - 1) / perWord bits

/-- The greatest value of a width of at most 64, which is also the mask of its bits. -/
def fieldMask (bits : Nat) : UInt64 := UInt64.ofNat (1 <<< bits - 1)

/-- One word that holds the given values, the first in the lowest bits. Bits of a value above the width
are dropped. -/
def packWord (bits : Nat) : List UInt32 → UInt64
  | [] => 0
  | v :: vs => (v.toUInt64 &&& fieldMask bits) ||| (packWord bits vs <<< UInt64.ofNat bits)

/-- Word `w` of the packed form of `values`. -/
def packedWord (bits : Nat) (values : Array UInt32) (w : Nat) : UInt64 :=
  packWord bits (values.extract (w * perWord bits) (w * perWord bits + perWord bits)).toList

/-- Packs `values` into the front of `scratch` and says how many words that took. The words after them
are left alone. -/
def packInto (bits : Nat) (values : Array UInt32) (scratch : Array UInt64) :
    Except Fault (Nat × Array UInt64) :=
  let needed := wordsNeeded values.size bits
  if scratch.size < needed then .error (.scratchTooSmall scratch.size needed)
  else .ok (needed, scratch.mapIdx fun w old => if w < needed then packedWord bits values w else old)

def zeros (len bits : Nat) : Except Fault Packed :=
  if 32 < bits then .error (.fieldTooWide bits)
  else do
    checkTable (wordsNeeded len bits) 8
    return ⟨len, bits, Array.replicate (wordsNeeded len bits) 0⟩

def ofValues (bits : Nat) (values : Array UInt32) : Except Fault Packed :=
  if 32 < bits then .error (.fieldTooWide bits)
  else .ok ⟨values.size, bits,
    (Array.range (wordsNeeded values.size bits)).map (packedWord bits values)⟩

/-- Words from outside as packed values. There have to be exactly as many as the layout needs. -/
def ofWords (len bits : Nat) (words : Array UInt64) : Except StoreError Packed :=
  if 32 < bits then .error (.fieldTooWide bits)
  else if words.size ≠ wordsNeeded len bits then
    .error (.malformedSection (wordsNeeded len bits) words.size)
  else .ok ⟨len, bits, words⟩

variable (a : Packed)

def isEmpty : Bool := a.len == 0

/-- The greatest value that fits. -/
def maxValue : Except Fault UInt64 :=
  if 64 < a.bits then .error (.wordTooNarrow a.bits) else .ok (fieldMask a.bits)

def wordIndex (i : Nat) : Nat := i / perWord a.bits

/-- The lowest bit of value `i` in its word. -/
def shift (i : Nat) : UInt64 := UInt64.ofNat (i % perWord a.bits * a.bits)

/-- Value `i`, whatever the length. -/
def field (i : Nat) : Except Fault UInt64 :=
  if a.bits = 0 then .ok 0
  else if 64 < a.bits then .error (.wordTooNarrow a.bits)
  else match a.words[a.wordIndex i]? with
    | none => .error (.outOfBounds (a.wordIndex i) a.words.size)
    | some word => .ok ((word >>> a.shift i) &&& fieldMask a.bits)

/-- Value `i`, or none at and beyond the length. -/
def get (i : Nat) : Except Fault (Option UInt64) :=
  if i < a.len then some <$> a.field i else .ok none

/-- Puts `v` in the place of value `i`. -/
def set (i : Nat) (v : UInt64) : Except Fault Packed :=
  if a.len ≤ i then .error (.fieldIndex i a.len)
  else if 64 < a.bits then .error (.wordTooNarrow a.bits)
  else if fieldMask a.bits < v then .error (.fieldValue v a.bits)
  else if a.bits = 0 then .ok a
  else match a.words[a.wordIndex i]? with
    | none => .error (.outOfBounds (a.wordIndex i) a.words.size)
    | some word =>
      let cleared := word &&& ~~~(fieldMask a.bits <<< a.shift i)
      .ok { a with words := a.words.set! (a.wordIndex i) (cleared ||| (v <<< a.shift i)) }

/-- Reads `count` values from value `i` on, behind the values read before. -/
def fieldsFrom : Nat → Nat → Array UInt64 → Except Fault (Array UInt64)
  | 0, _, before => .ok before
  | count + 1, i, before => do fieldsFrom count (i + 1) (before.push (← a.field i))

def values : Except Fault (Array UInt64) := a.fieldsFrom a.len 0 #[]

end Packed

end VoxelStore
