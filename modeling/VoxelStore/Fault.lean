import VoxelStore.ArrayWidth
/-!
# Faults

A fault is a broken precondition: the caller asked for something that the store does not define, and the
run ends. Errors that a caller is meant to handle are in `VoxelStore.StoreError`.
-/

namespace VoxelStore

/-- The preconditions that can be broken. -/
inductive Fault where
  /-- A range of layers ends below its start. -/
  | rangeInverted (bottom top : Int)
  /-- One array was copied into another of a different width. -/
  | widthMismatch (source target : ArrayWidth)
  /-- A narrow cell was given an ordinal above 65535. -/
  | ordinalTooWide (value : BlockState)
  | lightOutOfRange (value : UInt8)
  | lightLayerLength
  | biomeGridLength
  | noGlobalIds
  /-- An id does not map back to itself through the ordinal it stands for. -/
  | inconsistentIds
  | scratchTooSmall (held needed : Nat)
  | fieldTooWide (bits : Nat)
  | fieldIndex (index len : Nat)
  | fieldValue (value : UInt64) (bits : Nat)
  /-- A field is wider than a whole word. -/
  | wordTooNarrow (bits : Nat)
  /-- An index lies outside a table. -/
  | outOfBounds (index size : Nat)
  /-- A range of indices is inverted or ends outside its table. -/
  | rangeOutOfBounds (start stop size : Nat)
  /-- A pool without any room. -/
  | poolWithoutRoom
  /-- A table is too large for any memory. -/
  | tableTooLarge (entries entryBytes : Nat)
  /-- A zero byte in the value of a variable. -/
  | zeroInValue (name : List Char)
  deriving DecidableEq, Repr

/-- The text of a fault. Faults of arithmetic, of memory and of accesses outside a table carry none. -/
def Fault.message? : Fault → Option String
  | rangeInverted bottom top => s!"section range {bottom}..={top} is inverted"
  | widthMismatch source target =>
    s!"cannot copy {source.name} section data into {target.name} section data"
  | ordinalTooWide value => s!"ordinal {value} exceeds narrow storage"
  | lightOutOfRange value => s!"light level {value} out of range"
  | lightLayerLength => "light layer has the wrong length"
  | biomeGridLength => "biome grid has the wrong number of cells"
  | noGlobalIds => "global palette has no ids"
  | scratchTooSmall held needed => s!"scratch holds {held} words, {needed} needed"
  | fieldTooWide bits => s!"{bits} bits per value is too wide"
  | fieldIndex index len => s!"index {index} out of bounds for {len} values"
  | fieldValue value bits => s!"value {value} does not fit {bits} bits"
  | inconsistentIds | wordTooNarrow _ | outOfBounds .. | rangeOutOfBounds .. | poolWithoutRoom
  | tableTooLarge .. | zeroInValue _ => none

/-- The most bytes that a table can take. -/
def maxTableBytes : Nat := 0x7FFFFFFFFFFFFFFF

/-- Refuses a table of `entries` entries of `entryBytes` bytes each that is too large for any memory. -/
def checkTable (entries entryBytes : Nat) : Except Fault Unit :=
  if maxTableBytes < entries * entryBytes then .error (.tableTooLarge entries entryBytes) else .ok ()

end VoxelStore
