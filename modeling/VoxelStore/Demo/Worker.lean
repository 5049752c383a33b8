import VoxelStore.Palette.BiomeGrid
import VoxelStore.Palette.Encoder
import VoxelStore.Pool
/-!
# Workers of the demonstration run

A worker makes edits of arbitrary blocks, encodes every section that they touch and checks that decoding
gives the same blocks back. Arbitrary numbers come from a linear congruence, so that a run can be repeated.
-/

namespace VoxelStore.Demo

def editsPerWorker : Nat := 256

/-- The greatest number of distinct block states in one edit. -/
def maxDistinct : Nat := 300

/-- What workers did. -/
structure Report where
  edits : Nat := 0
  sections : Nat := 0
  globalSections : Nat := 0
  trimmed : Nat := 0
  packedBytes : Nat := 0
  tileBytes : Nat := 0
  deriving DecidableEq, Repr

namespace Report

def add (a b : Report) : Report where
  edits := a.edits + b.edits
  sections := a.sections + b.sections
  globalSections := a.globalSections + b.globalSections
  trimmed := a.trimmed + b.trimmed
  packedBytes := a.packedBytes + b.packedBytes
  tileBytes := a.tileBytes + b.tileBytes

def text (r : Report) : String :=
  s!"Encoded {r.sections} sections ({r.globalSections} global, {r.trimmed} trimmed) from {r.edits} edits " ++
    s!"into {r.packedBytes} bytes plus {r.tileBytes} tile bytes"

end Report

/-- What the workers share: the tables of the store, and the source of arbitrary numbers. -/
structure Bench where
  settings : Settings
  pool : Pool Edit
  encoder : Encoder
  blocks : GlobalPalette
  biomes : GlobalPalette
  seed : UInt64
  report : Report := {}

/-- The work of a worker, which may end in an error or in a fault. -/
abbrev Work := StateT Bench (ExceptT StoreError Run)

/-- An arbitrary number from `least` on, out of `count`. -/
def arbitrary (least : Int) (count : Nat) : Work Int := do
  let bench ← get
  let seed := bench.seed * 6364136223846793005 + 1442695040888963407
  set { bench with seed }
  return least + ((seed >>> 33).toNat % count : Nat)

/-- An arbitrary position in the range of heights of a world. -/
def arbitraryPosition : Work Position :=
  return ⟨← arbitrary 0 16, ← arbitrary (-64) 384, ← arbitrary 0 16⟩

/-- An arbitrary block outside of the air family, out of `distinct`. -/
def arbitraryBlock (distinct : Nat) : Work BlockState := return UInt32.ofNat (← arbitrary 4 distinct).toNat

/-- Fills an edit with arbitrary changes. -/
def fill (e : Edit) : Work Edit := do
  let s := (← get).settings
  let distinct := (← arbitrary 1 (min (s.blockStates.toNat - 4) maxDistinct)).toNat
  let mut e ← e.fillSection (← arbitrary (-4) 4) (← arbitraryBlock distinct)
  for _ in List.range (← arbitrary 1 2047).toNat do
    e ← e.setBlock (← arbitraryPosition) (← arbitraryBlock distinct)
  e ← e.setBiome ⟨0, 0, 0⟩ (UInt16.ofNat (← arbitrary 0 s.biomes.toNat).toNat)
  e.setTile { ← arbitraryPosition with y := 64 } ⟨[10, 0]⟩

/-- Encodes a layer, decodes it again and compares. -/
def checkLayer (e : Edit) (layer : Int) : Work Unit := do
  let bench ← get
  let (encoded, encoder) ← bench.encoder.encodeLayer e.column layer bench.blocks
  set { bench with encoder }
  let some encoded := encoded | return
  let (result, decoded) ← liftM (encoded.decodeInto bench.blocks (← SectionArray.create) : Except Fault _)
  if let .error error := result then throw error
  if let some blocks := e.peek layer then
    unless decoded.cells.toArray == blocks.cells.toArray.map BlockState.stored do
      throw (.other s!"layer {layer} decoded as something else")
  modify fun bench => { bench with report := bench.report.add {
    sections := 1
    globalSections := if encoded.isGlobal then 1 else 0
    packedBytes := encoded.data.words.size * 8 } }

/-- Makes one edit, encodes what it touches, and gives it back to the pool. -/
def makeEdit : Work Unit := do
  let bench ← get
  let (e, pool) ← bench.pool.poll
  set { bench with pool }
  let (trimmed, e) := (← fill e).trimAll
  for layer in e.column.sectionLayers do
    checkLayer e layer
  let biomeBytes ← match e.biomes? 0 with
    | none => pure 0
    | some grid => do
      let encoded ← liftM (BiomeGrid.encode grid.toArray bench.settings.defaultBiome bench.biomes)
      pure (encoded.data.words.size * 8)
  let bench ← get
  set { bench with
    pool := ← bench.pool.recycle e
    report := bench.report.add {
      edits := 1
      trimmed
      packedBytes := biomeBytes
      tileBytes := e.tiles.entries.foldl (fun n (entry : Position × Tag) => n + entry.2.bytes.length) 0 } }

/-- The work of all workers, one after the other. -/
def runWorkers (s : Settings) (pool : Pool Edit) (count : Nat) : Except StoreError (Report × Nat) := do
  if count = 0 then return ({}, 0)
  let work : Work Unit := do
    for worker in List.range count do
      modify fun bench => { bench with seed := UInt64.ofNat worker }
      for _ in List.range editsPerWorker do makeEdit
  let start : Bench := {
    settings := s
    pool
    encoder := Encoder.create s.blockStates
    blocks := .identity s.blockStates
    biomes := .identity s.biomes
    seed := 0 }
  let whole : ExceptT StoreError Run Bench := do
    discard (liftM (ArrayWidth.settle s.blockStates))
    return (← work.run start).2
  match EStateM.run whole.run {} with
  | .ok (.ok bench) _ => return (bench.report, bench.pool.idle.length)
  | .ok (.error error) _ => throw error
  | .error fault _ => throw (.other ("worker failed: " ++ fault.message?.getD "access outside a table"))

end VoxelStore.Demo
