import VoxelStore.Palette.Encoder
import VoxelStore.Proofs.Edit.History
/-!
# Requests and replies

Whoever works with a column or an edit sees no more of it than the replies to requests: reads, and
operations that may give something back. `Reply` collects all of these answers in one type, so that long
exchanges with different objects can be compared. Serving an operation is running it (`Column.Op.map_serve`,
`Edit.Op.map_serve`); only the answer is added.
-/

namespace VoxelStore

/-- What a request is answered with. -/
inductive Reply where
  | done
  /-- There is no object of the given name. -/
  | missing
  | flag (b : Bool)
  | count (n : Nat)
  | number (n : Int)
  | range (bottom top : Int)
  | layers (layers : List Int)
  | offset (i : Option Nat)
  | growth (g : Option Extension)
  | state (s : SectionState)
  | block (v : BlockState)
  | value (v : Option BlockState)
  | cells (values : Option (Vector BlockState sectionBlocks))
  | array (a : Option SectionArray)
  | biome (b : Option Biome)
  | biomes (grid : Option (Vector (Option Biome) sectionBiomes))
  | level (v : UInt8)
  | light (grid : Option (Vector UInt8 sectionBlocks))
  | tile (t : Option Tag)
  | tiles (tiles : Table Position Tag)
  | entities (tags : List Tag)
  | ids (ids : List Nat)
  | heightMaps (maps : Table HeightMap (Array Int))
  | encoded (s : Option PalettedSection)
  | entry (value : Except StoreError UInt32)
  | decoded (values : Except StoreError (Array UInt32))
  | outcome (result : Except StoreError Unit)

theorem Reply.map_snd_done {α : Type} (x : Run α) : Prod.snd <$> (do return (Reply.done, ← x)) = x := by
  rw [map_bind]
  exact bind_pure x

namespace Column

/-- The reads of a column. -/
inductive Read where
  | range
  | layerCount
  | background
  | offset (layer : Int)
  | state (layer : Int)
  | hasSection (layer : Int)
  | sectionLayers
  | isEmpty
  | peek (layer : Int)
  | getBlock (p : Position)

def Read.answer (c : Column) : Read → Reply
  | range => .range c.bottom c.top
  | layerCount => .count c.slots.size
  | background => .block c.background
  | offset layer => .offset (c.offset? layer)
  | state layer => .state (c.state layer)
  | hasSection layer => .flag (c.hasSection layer)
  | sectionLayers => .layers c.sectionLayers
  | isEmpty => .flag c.isEmpty
  | peek layer => .array (c.peek layer)
  | getBlock p => .block (c.getBlock p)

/-- An operation with what it gives back: the way in which the column grew, the array that was there
before, the array that was loaded and written, or how many layers were trimmed. Which lock a layer has is
not told. -/
def Op.serve (c : Column) : Op → Run (Reply × Column)
  | extendTo layer => do
    let (growth, c) ← c.extendTo layer
    return (.growth growth, c)
  | replaceBlocks layer data => do
    let (before, c) ← c.replaceBlocks layer data
    return (.array before, c)
  | write layer writes => do
    let c ← c.modifyLayer layer (ArrayWrite.runAll writes)
    return (.array (c.peek layer), c)
  | trim layer => return (.flag (c.trim layer).1, (c.trim layer).2)
  | trimAll => return (.count c.trimAll.1, c.trimAll.2)
  | op => do return (.done, ← op.run c)

theorem Op.map_serve (op : Op) (c : Column) : Prod.snd <$> op.serve c = op.run c := by
  cases op with
  | extendTo layer =>
    rw [serve, run, map_bind, map_eq_pure_bind]
    exact bind_congr fun _ => rfl
  | replaceBlocks layer data =>
    rw [serve, run, map_bind, map_eq_pure_bind]
    exact bind_congr fun _ => rfl
  | write layer writes =>
    rw [serve, run, map_bind]
    exact bind_pure _
  | trim layer => rfl
  | trimAll => rfl
  | _ => exact Reply.map_snd_done _

/-- What can be asked of a column. Encoding a layer leaves the column as it is. -/
inductive Request where
  | read (r : Read)
  | change (op : Op)
  | encode (encoder : Encoder) (layer : Int) (g : GlobalPalette)

def Request.serve (c : Column) : Request → Run (Reply × Column)
  | read r => return (r.answer c, c)
  | change op => op.serve c
  | encode encoder layer g => do
    let (encoded, _) ← encoder.encodeLayer c layer g
    return (.encoded encoded, c)

/-- The request for the array of a layer, which is made from the layer's value if it has none. -/
def Request.load (layer : Int) : Request := change (.write layer [])

end Column

namespace Edit

/-- The reads of an edit, those of its column among them. -/
inductive Read where
  | column (r : Column.Read)
  | getBiome (p : Position)
  | biomes (layer : Int)
  | hasBiomes (layer : Int)
  | getLight (kind : LightKind) (p : Position)
  | lightLayer (kind : LightKind) (layer : Int)
  | getTile (p : Position)
  | tiles
  | entities
  | entityRemoves
  | heightMaps
  | fastMode
  | bitMask
  | isEmpty

def Read.answer (e : Edit) : Read → Reply
  | column r => r.answer e.column
  | getBiome p => .biome (e.getBiome p)
  | biomes layer => .biomes (e.biomes? layer)
  | hasBiomes layer => .flag (e.hasBiomes layer)
  | getLight kind p => .level (e.getLight kind p)
  | lightLayer kind layer => .light (e.lightLayer? kind layer)
  | getTile p => .tile (e.getTile p)
  | tiles => .tiles e.tiles
  | entities => .entities e.entities
  | entityRemoves => .ids e.entityRemoves
  | heightMaps => .heightMaps e.heightMaps
  | fastMode => .flag e.fastMode
  | bitMask => .number e.bitMask
  | isEmpty => .flag e.isEmpty

/-- An operation with what it gives back. -/
def Op.serve (e : Edit) : Op → Run (Reply × Edit)
  | replaceBlocks layer data => do
    let (before, e) ← e.replaceBlocks layer data
    return (.array before, e)
  | write layer writes => do
    let e ← e.modifyLayer layer (ArrayWrite.runAll writes)
    return (.array (e.peek layer), e)
  | trimAll => return (.count e.trimAll.1, e.trimAll.2)
  | op => do return (.done, ← op.run e)

theorem Op.map_serve (op : Op) (e : Edit) : Prod.snd <$> op.serve e = op.run e := by
  cases op with
  | replaceBlocks layer data =>
    rw [serve, run, map_bind, map_eq_pure_bind]
    exact bind_congr fun _ => rfl
  | write layer writes =>
    rw [serve, run, map_bind]
    exact bind_pure _
  | trimAll => rfl
  | _ => exact Reply.map_snd_done _

/-- What can be asked of an edit. Encoding a layer leaves the edit as it is. -/
inductive Request where
  | read (r : Read)
  | change (op : Op)
  | encode (encoder : Encoder) (layer : Int) (g : GlobalPalette)

def Request.serve (e : Edit) : Request → Run (Reply × Edit)
  | read r => return (r.answer e, e)
  | change op => op.serve e
  | encode encoder layer g => do
    let (encoded, _) ← encoder.encodeLayer e.column layer g
    return (.encoded encoded, e)

end Edit

end VoxelStore
