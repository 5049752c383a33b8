import VoxelStore.Column
import VoxelStore.Palette.Section
/-!
# Encoding blocks

The encoder turns a section array into stored form. A first pass notes the distinct ordinals in the order in
which they are first seen, their number picks the palette, a second pass finds the entry of each block, and
the entries are packed. The tables serve one section after the other: each encoding leaves those of the first
pass clean. The entries and the packing words keep old content, which is never read.
-/

namespace VoxelStore

/-- The tables of an encoder. -/
structure Encoder where
  /-- For each ordinal its place in the palette, once it was seen. -/
  indexOf : Array UInt32
  /-- The ordinals seen, in order, in the first slots. -/
  palette : Vector BlockState sectionBlocks
  /-- Room for the entry of each block. -/
  entries : Vector UInt32 sectionBlocks
  /-- Room for packed words. -/
  words : Array UInt64
  deriving DecidableEq, Repr

/-- What the first pass has counted. -/
structure Census where
  /-- The number of distinct ordinals, which is the number of slots of the palette that are in use. -/
  distinct : Nat := 0
  /-- The number of blocks of the section, less those of the air family that were seen. -/
  nonAir : UInt16 := UInt16.ofNat sectionBlocks
  deriving DecidableEq, Repr

/-- Strikes a block of the air family off the count. -/
def Census.strike (c : Census) (ordinal : BlockState) : Census :=
  if ordinal.isAir then { c with nonAir := c.nonAir - 1 } else c

namespace Encoder

/-- Marks a slot that is not in use. -/
def unset : UInt32 := 0xFFFFFFFF

/-- A clean encoder for ordinals below `states` that packs into at most `words` words. -/
def clean (states words : Nat) : Encoder where
  indexOf := Array.replicate states unset
  palette := Vector.replicate sectionBlocks unset
  entries := Vector.replicate sectionBlocks 0
  words := Array.replicate words 0

/-- A clean encoder of any sizes that memory can have. -/
def withSizes (states words : Nat) : Except Fault Encoder := do
  checkTable states 4
  checkTable words 8
  return clean states words

/-- Room for a section of 32-bit entries, two in each word. -/
def maxWords : Nat := sectionBlocks / 2

/-- An encoder for a registry of the given size. -/
def create (states : UInt32) : Encoder := clean states.toNat maxWords

variable (e : Encoder)

/-! ## The first pass -/

/-- Gives an ordinal the next slot of the palette, unless it has one. -/
def note (c : Census) (ordinal : BlockState) : Except Fault (Encoder × Census) :=
  match e.indexOf[ordinal.toNat]? with
  | none => .error (.outOfBounds ordinal.toNat e.indexOf.size)
  | some slot =>
    if slot ≠ unset then .ok (e, c)
    else if h : c.distinct < sectionBlocks then
      .ok ({ e with
        indexOf := e.indexOf.set! ordinal.toNat (UInt32.ofNat c.distinct)
        palette := e.palette.set c.distinct ordinal h }, { c with distinct := c.distinct + 1 })
    else .error (.outOfBounds c.distinct sectionBlocks)

/-- Notes what is stored for each of the ordinals, in order, and counts the blocks. -/
def noteAll (c : Census) (ordinals : List BlockState) : Except Fault (Encoder × Census) :=
  ordinals.foldlM (fun p ordinal => p.1.note (p.2.strike ordinal) ordinal.stored) (e, c)

/-- The slots of the palette that are in use. -/
def noted (distinct : Nat) : Array BlockState := e.palette.toArray.extract 0 distinct

/-- Clears the slots that are in use. -/
def forget (distinct : Nat) : Encoder :=
  { e with
    indexOf := (e.noted distinct).foldl (fun table ordinal => table.set! ordinal.toNat unset) e.indexOf
    palette := e.palette.mapIdx fun k ordinal => if k < distinct then unset else ordinal }

/-! ## The second pass -/

/-- The place of an ordinal in the palette. -/
def localIndex (ordinal : BlockState) : Except Fault UInt32 :=
  match e.indexOf[ordinal.toNat]? with
  | some i => .ok i
  | none => .error (.outOfBounds ordinal.toNat e.indexOf.size)

/-- Puts the entries of the given blocks in their places. -/
def fill (entry : BlockState → Except Fault UInt32) (blocks : SectionArray) :
    List (Fin sectionBlocks) → Vector UInt32 sectionBlocks → Except Fault (Vector UInt32 sectionBlocks)
  | [], entries => .ok entries
  | i :: rest, entries => do fill entry blocks rest (entries.set i (← entry (blocks.cells.get i).stored) i.isLt)

/-- A section of blocks with one packed entry per ordinal. -/
def pack (bits : Nat) (palette : Palette) (entry : BlockState → Except Fault UInt32) (blocks : SectionArray)
    (nonAir : UInt16) : Except Fault (PalettedSection × Encoder) := do
  let entries ← fill entry blocks (List.finRange sectionBlocks) e.entries
  let (used, words) ← Packed.packInto bits entries.toArray e.words
  return (⟨.blocks, palette, ⟨sectionBlocks, bits, words.extract 0 used⟩, nonAir⟩, { e with entries, words })

/-! ## Sections -/

def encode (blocks : SectionArray) (g : GlobalPalette) : Run (PalettedSection × Encoder) := do
  let (e, c) ← e.noteAll {} blocks.cells.toList
  match PaletteKind.blocks.localBits c.distinct with
  | none =>
    Run.emit (.globalFallback c.distinct)
    let (encoded, e) ← e.pack g.bits .global g.idOf blocks c.nonAir
    return (encoded, e.forget c.distinct)
  | some 0 => return (.single .blocks (e.palette.get ⟨0, sectionBlocks_pos⟩) c.nonAir, e.forget c.distinct)
  | some bits =>
    let (encoded, e) ← e.pack bits (.indirect (e.noted c.distinct)) e.localIndex blocks c.nonAir
    return (encoded, e.forget c.distinct)

/-- What the section holds where the edit changes nothing: the block of the base, and air where the base
has none either. -/
def merged (edit base : BlockState) : BlockState :=
  if edit = .reserved then base.stored else edit

/-- Writes the merged block of each of the given indices into `blocks`. Only placeholders are written. -/
def resolve (base : SectionArray) : List (Fin sectionBlocks) → SectionArray → Except Fault SectionArray
  | [], blocks => .ok blocks
  | i :: rest, blocks => do
    if blocks.cells[i] = .reserved then
      resolve base rest (← blocks.set i (merged blocks.cells[i] base.cells[i]))
    else resolve base rest blocks

/-- Encodes an edit on top of the section that the world has. The resolved blocks are also written back
into the edit, which then says what is stored. -/
def encodeMerged (blocks base : SectionArray) (g : GlobalPalette) :
    Run (PalettedSection × SectionArray × Encoder) := do
  let blocks ← resolve base (List.finRange sectionBlocks) blocks
  let (encoded, e) ← e.encode blocks g
  return (encoded, blocks, e)

/-- The stored form of a layer that holds one value. -/
def uniformSection (value : BlockState) : PalettedSection :=
  .single .blocks value.stored (if value.isAir then 0 else UInt16.ofNat sectionBlocks)

/-- Encodes a layer of a column, unless it is empty. A layer that holds one value is not scanned. -/
def encodeLayer (c : Column) (layer : Int) (g : GlobalPalette) :
    Run (Option PalettedSection × Encoder) := do
  match c.layer layer with
  | .empty _ => return (none, e)
  | .uniform value _ => return (some (uniformSection value), e)
  | .present blocks =>
    let (encoded, e) ← e.encode blocks g
    return (some encoded, e)

end Encoder

end VoxelStore
