import VoxelStore.Extension
import VoxelStore.SectionArray
/-!
# A column of sections

The layers of a chunk column from `bottom` up. The range only grows: touching a layer outside of it adds
all layers in between. A layer is empty and reads as the background everywhere, or holds one value
everywhere, or has an array.

A layer without data may keep the array it had before as a spare. A spare is never read, and it is filled
anew before it serves again.
-/

namespace VoxelStore

/-- What a layer holds, as others see it. -/
inductive SectionState where
  | empty
  | uniform (value : BlockState)
  | present
  deriving DecidableEq, Repr

/-- What a layer holds, with its array or its spare. -/
inductive Layer where
  | empty (spare : Option SectionArray)
  | uniform (value : BlockState) (spare : Option SectionArray)
  | present (blocks : SectionArray)
  deriving DecidableEq

namespace Layer

def state : Layer → SectionState
  | empty _ => .empty
  | uniform value _ => .uniform value
  | present _ => .present

def blocks? : Layer → Option SectionArray
  | present blocks => some blocks
  | empty _ | uniform .. => none

/-- The array or the spare. -/
def array? : Layer → Option SectionArray
  | empty spare | uniform _ spare => spare
  | present blocks => some blocks

def isEmpty : Layer → Bool
  | empty _ => true
  | uniform .. | present _ => false

/-- The layer with the same value everywhere. The background needs no data. -/
def filled (background value : BlockState) (spare : Option SectionArray) : Layer :=
  if value = background then empty spare else uniform value spare

/-- The 4096 values that the layer stands for. -/
def contents (background : BlockState) : Layer → Vector BlockState sectionBlocks
  | empty _ => Vector.replicate sectionBlocks background
  | uniform value _ => Vector.replicate sectionBlocks value
  | present blocks => blocks.cells

def get (background : BlockState) (i : Fin sectionBlocks) : Layer → BlockState
  | empty _ => background
  | uniform value _ => value
  | present blocks => blocks.cells[i]

/-- An array that holds `value` everywhere: the spare filled anew, or a new one. -/
def refill (value : BlockState) : Option SectionArray → Run SectionArray
  | some spare => spare.setAll value
  | none => SectionArray.filled value

/-- The array of the layer, made from its value if it has none. -/
def materialize (background : BlockState) : Layer → Run SectionArray
  | empty spare => refill background spare
  | uniform value spare => refill value spare
  | present blocks => pure blocks

/-- The layer without its array, if all values in it are the same. -/
def trimmed? (background : BlockState) : Layer → Option Layer
  | present blocks => blocks.uniform?.map fun value => filled background value (some blocks)
  | empty _ | uniform .. => none

/-- The layer emptied, its array kept as a spare. -/
def cleared (l : Layer) : Layer := empty l.array?

def withoutSpare : Layer → Layer
  | empty _ => empty none
  | uniform value _ => uniform value none
  | present blocks => present blocks

end Layer

/-- A layer with its lock. -/
structure Slot where
  layer : Layer
  lock : SectionLock
  deriving DecidableEq

namespace Slot

/-- An empty layer with the lock of the given number. -/
def fresh (n : Nat) : Slot × Nat := (⟨.empty none, ⟨n⟩⟩, n + 1)

/-- The same layer under the lock of the given number, without its spare. -/
def copy (s : Slot) (n : Nat) : Slot := ⟨s.layer.withoutSpare, ⟨n⟩⟩

end Slot

/-- A column of sections. `slots[i]` belongs to layer `bottom + i`. -/
structure Column where
  bottom : Int
  slots : Array Slot
  /-- What every block of an empty layer reads as. -/
  background : BlockState
  deriving DecidableEq

namespace Column

/-- Empty layers from `bottom` to `top`, each with a lock of its own. -/
def create (bottom top : Int) (background : BlockState) : Run Column := do
  if top < bottom then throw (.rangeInverted bottom top)
  let count := (top - bottom + 1).toNat
  let (slots, nextLock) := Extension.make Slot.fresh count (← get).nextLock
  modify fun p => { p with nextLock }
  return ⟨bottom, slots.toArray, background⟩

variable (c : Column)

def top : Int := c.bottom + c.slots.size - 1

/-- The place of a layer among the slots, if it lies in the range. -/
def offset? (layer : Int) : Option Nat :=
  if c.bottom ≤ layer ∧ layer ≤ c.top then some (layer - c.bottom).toNat else none

def slot? (layer : Int) : Option Slot := (c.offset? layer).bind (c.slots[·]?)

/-- What a layer holds. Outside the range every layer is empty. -/
def layer (layer : Int) : Layer := ((c.slot? layer).map Slot.layer).getD (.empty none)

/-- The column with another content for a layer of the range. -/
def putLayer (layer : Int) (l : Layer) : Column :=
  match c.offset? layer with
  | some i => { c with slots := c.slots.modify i fun s => { s with layer := l } }
  | none => c

def state (layer : Int) : SectionState := (c.layer layer).state

/-- The layer carries data. -/
def hasSection (layer : Int) : Bool := !(c.layer layer).isEmpty

def isEmpty : Bool := c.slots.all (·.layer.isEmpty)

/-- The layers that carry data, lowest first. -/
def sectionLayers : List Int :=
  c.slots.toList.zipIdx.filterMap fun (s, i) => if s.layer.isEmpty then none else some (c.bottom + i)

def peek (layer : Int) : Option SectionArray := (c.layer layer).blocks?

def getBlock (p : Position) : BlockState := (c.layer p.layer).get c.background p.blockIndex

/-! ## Growth -/

/-- How the column has to grow to reach a layer, if it has to. -/
def growth? (layer : Int) : Option Extension :=
  if layer < c.bottom then some ⟨(c.bottom - layer).toNat, false⟩
  else if c.top < layer then some ⟨(layer - c.top).toNat, true⟩
  else none

/-- The column with the added layers, whose locks have numbers from `nextLock` on, and the number after
them. -/
def grow (e : Extension) (nextLock : Nat) : Column × Nat :=
  let (slots, nextLock) := e.applyWith Slot.fresh c.slots nextLock
  ({ c with bottom := if e.append then c.bottom else c.bottom - e.diff, slots }, nextLock)

/-- Grows the range until it contains a layer, and says how it grew. -/
def extendTo (layer : Int) : Run (Option Extension × Column) := do
  match c.growth? layer with
  | none => return (none, c)
  | some e =>
    let (c, nextLock) := c.grow e (← get).nextLock
    modify fun p => { p with nextLock }
    Run.emit (.columnGrew e.diff c.bottom c.top)
    return (some e, c)

/-- The column with a range that contains a layer. -/
def reach (layer : Int) : Run Column := Prod.snd <$> c.extendTo layer

/-! ## Writing -/

/-- Makes `data` the blocks of a layer, or empties the layer, and gives the array that it had. -/
def replaceBlocks (layer : Int) (data : Option SectionArray) : Run (Option SectionArray × Column) := do
  let c ← c.reach layer
  return (c.peek layer, c.putLayer layer (data.elim (.empty none) .present))

/-- Makes `data` the blocks of a layer, or empties the layer. -/
def setBlocks (layer : Int) (data : Option SectionArray) : Run Column :=
  Prod.snd <$> c.replaceBlocks layer data

/-- The array of a layer, made from its value if it has none. -/
def load (layer : Int) : Run (SectionArray × Column) := do
  let c ← c.reach layer
  let blocks ← (c.layer layer).materialize c.background
  return (blocks, c.putLayer layer (.present blocks))

def modifyLayer (layer : Int) (write : SectionArray → Except Fault SectionArray) : Run Column := do
  let (blocks, c) ← c.load layer
  return c.putLayer layer (.present (← write blocks))

/-- Puts a block. A layer that holds this very value everywhere stays as it is. -/
def setBlock (p : Position) (value : BlockState) : Run Column := do
  if c.state p.layer = .uniform value then return c
  c.modifyLayer p.layer (·.set p.blockIndex value)

/-- Makes every block of a layer the same without an array. -/
def fillSection (layer : Int) (value : BlockState) : Run Column := do
  let c ← c.reach layer
  return c.putLayer layer (.filled c.background value (c.layer layer).array?)

/-- Drops the array of a layer whose values are all the same, and says whether it did. -/
def trim (layer : Int) : Bool × Column :=
  match (c.layer layer).trimmed? c.background with
  | some l => (true, c.putLayer layer l)
  | none => (false, c)

/-- Trims every layer, and says how many lost their arrays. -/
def trimAll : Nat × Column :=
  (c.slots.countP fun s => (s.layer.trimmed? c.background).isSome,
    { c with slots := c.slots.map fun s =>
        { s with layer := (s.layer.trimmed? c.background).getD s.layer } })

/-- The lock of a layer. The column itself never takes it. -/
def sectionLock (layer : Int) : Run (SectionLock × Column) := do
  let c ← c.reach layer
  match c.slot? layer with
  | some s => return (s.lock, c)
  | none => throw (.outOfBounds (layer - c.bottom).toNat c.slots.size)

/-- Empties every layer. The range and the arrays stay. -/
def reset : Column := { c with slots := c.slots.map fun s => { s with layer := s.layer.cleared } }

/-- A column with the same contents that shares no lock with this one and keeps no spares. -/
def copy : Run Column := do
  let nextLock := (← get).nextLock
  modify fun p => { p with nextLock := nextLock + c.slots.size }
  return { c with slots := c.slots.mapIdx fun i s => s.copy (nextLock + i) }

end Column

end VoxelStore
