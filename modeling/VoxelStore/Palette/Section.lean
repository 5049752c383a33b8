import VoxelStore.Packed
import VoxelStore.Palette.Global
import VoxelStore.Palette.Kind
import VoxelStore.SectionArray
/-!
# Paletted sections

A section in the form in which it is stored: a palette and one packed entry per block or biome cell. A
section of one value needs no entries; one of few values indexes into a palette of its own; any other
holds global ids.

Decoding is defined for sections of any origin. An entry that its palette does not know is an error. A
fault can only come from packed words that do not match their own layout.
-/

namespace VoxelStore

/-- What the packed entries of a section mean. -/
inductive Palette where
  /-- Every entry is this value. -/
  | single (value : UInt32)
  /-- An entry is an index into these values. -/
  | indirect (values : Array UInt32)
  /-- An entry is a global id. -/
  | global
  deriving DecidableEq, Repr

/-- A computation that may end in an error, or in a fault. -/
abbrev Checked := ExceptT StoreError (Except Fault)

namespace Palette

/-- The number of values of a palette of the section's own. -/
def size? : Palette → Option Nat
  | single _ => some 1
  | indirect values => some values.size
  | global => none

/-- The values of a palette of the section's own, by index. -/
def values : Palette → Array UInt32
  | single value => #[value]
  | indirect values => values
  | global => #[]

/-- The value that an entry stands for. -/
def resolve (p : Palette) (g : GlobalPalette) (entry : UInt64) : Except StoreError UInt32 :=
  match p with
  | single value => .ok value
  | indirect values =>
    match values[entry.toNat]? with
    | some value => .ok value
    | none => .error (.paletteIndexOutOfRange entry values.size)
  | global =>
    match g.ordinalOf entry with
    | some value => .ok value
    | none => .error (.paletteIndexOutOfRange entry g.size)

end Palette

/-- A section in stored form. -/
structure PalettedSection where
  kind : PaletteKind
  palette : Palette
  data : Packed
  /-- The number of blocks outside the air family. Zero for biomes. -/
  nonAir : UInt16
  deriving DecidableEq, Repr

namespace PalettedSection

def single (kind : PaletteKind) (value : UInt32) (nonAir : UInt16) : PalettedSection :=
  ⟨kind, .single value, ⟨kind.entries, 0, #[]⟩, nonAir⟩

/-- A section of parts from outside. The number of words is checked. -/
def ofParts (kind : PaletteKind) (palette : Palette) (bits : Nat) (words : Array UInt64)
    (nonAir : UInt16) : Except StoreError PalettedSection := do
  return ⟨kind, palette, ← Packed.ofWords kind.entries bits words, nonAir⟩

variable (s : PalettedSection) (g : GlobalPalette)

def isGlobal : Bool := s.palette == .global

/-- The value of entry `i`, whatever the length. -/
def fieldValue (i : Nat) : Checked UInt32 := do
  let entry ← ExceptT.lift (s.data.field i)
  ExceptT.mk (.ok (s.palette.resolve g entry))

def get (i : Nat) : Checked UInt32 :=
  if i < s.data.len then s.fieldValue g i else throw (.entryOutOfRange i s.data.len)

/-- Decodes `count` entries from entry `i` on, behind the values decoded before. -/
def decodeFrom : Nat → Nat → Array UInt32 → Checked (Array UInt32)
  | 0, _, before => return before
  | count + 1, i, before => do decodeFrom count (i + 1) (before.push (← s.fieldValue g i))

/-- The values of all entries, or the error of the first entry that has none. -/
def decode : Checked (Array UInt32) := s.decodeFrom g s.data.len 0 #[]

/-- Decodes `count` entries from entry `i` on into `out`. On an error the entries before it stay
written. -/
def writeFrom : Nat → Nat → SectionArray → Except Fault (Except StoreError Unit × SectionArray)
  | 0, _, out => .ok (.ok (), out)
  | count + 1, i, out => do
    match ← (s.fieldValue g i).run with
    | .error error => return (.error error, out)
    | .ok value => writeFrom count (i + 1) (← out.set i value)

/-- Writes the decoded block states into `out`. -/
def decodeInto (out : SectionArray) : Except Fault (Except StoreError Unit × SectionArray) :=
  match s.kind with
  | .biomes => .ok (.error (.notBlocks s.kind), out)
  | .blocks => s.writeFrom g s.data.len 0 out

end PalettedSection

end VoxelStore
