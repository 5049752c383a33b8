import VoxelStore.Channel
import VoxelStore.Column
import VoxelStore.HeightMap
import VoxelStore.Settings.Basic
import VoxelStore.Table
import VoxelStore.Tag
/-!
# Pending changes to a chunk column

An edit collects blocks, biomes, light, tiles, entities and height maps for one column. A block left at
the placeholder and a light level left at `lightUnset` mean "no change". All writes go through the edit,
so that the side data grows in step with the column.
-/

namespace VoxelStore

def maxLight : UInt8 := 15

/-- The level of a block whose light the edit does not change. -/
def lightUnset : UInt8 := 16

/-- The two kinds of light. -/
inductive LightKind where
  | block
  | sky
  deriving DecidableEq, Repr

/-- Pending changes to one chunk column. -/
structure Edit where
  column : Column
  biomes : Channel (Option Biome) sectionBiomes := {}
  blockLight : Channel UInt8 sectionBlocks := {}
  skyLight : Channel UInt8 sectionBlocks := {}
  /-- Tiles by their position inside the column. -/
  tiles : Table Position Tag := {}
  entities : List Tag := []
  /-- The ids of entities to remove. -/
  entityRemoves : List Nat := []
  heightMaps : Table HeightMap (Array Int) := {}
  fastMode : Bool := false
  bitMask : Int := -1

namespace Edit

/-- An edit without changes over the layers from `bottom` to `top`. -/
def create (bottom top : Int) : Run Edit := do
  return { column := ← Column.create bottom top .reserved }

/-- An edit without changes over the layers that the settings name. -/
def ofSettings (s : Settings) : Run Edit := create s.bottom.toInt s.top.toInt

variable (e : Edit)

/-- The edit with a range that contains a layer, and all side data grown in step. -/
def reach (layer : Int) : Run Edit := do
  let (growth, column) ← e.column.extendTo layer
  match growth with
  | none => return { e with column }
  | some g =>
    return { e with
      column
      biomes := e.biomes.grow g
      blockLight := e.blockLight.grow g
      skyLight := e.skyLight.grow g }

def layerCount : Nat := e.column.slots.size

def offset (layer : Int) : Nat := (layer - e.column.bottom).toNat

/-! ## Blocks -/

def hasSection (layer : Int) : Bool := e.column.hasSection layer

/-- The block at a position, the placeholder where nothing changes. -/
def getBlock (p : Position) : BlockState := e.column.getBlock p

def peek (layer : Int) : Option SectionArray := e.column.peek layer

/-- The array of a layer, made from its value if it has none. -/
def load (layer : Int) : Run (SectionArray × Edit) := do
  let e ← e.reach layer
  let (blocks, column) ← e.column.load layer
  return (blocks, { e with column })

def modifyLayer (layer : Int) (write : SectionArray → Except Fault SectionArray) : Run Edit := do
  let e ← e.reach layer
  return { e with column := ← e.column.modifyLayer layer write }

/-- Makes `data` the blocks of a layer, or empties the layer, and gives the array that it had. -/
def replaceBlocks (layer : Int) (data : Option SectionArray) : Run (Option SectionArray × Edit) := do
  let e ← e.reach layer
  let (before, column) ← e.column.replaceBlocks layer data
  return (before, { e with column })

/-- Makes `data` the blocks of a layer, or empties the layer. -/
def setBlocks (layer : Int) (data : Option SectionArray) : Run Edit :=
  Prod.snd <$> e.replaceBlocks layer data

def fillSection (layer : Int) (value : BlockState) : Run Edit := do
  let e ← e.reach layer
  return { e with column := ← e.column.fillSection layer value }

def setBlock (p : Position) (value : BlockState) : Run Edit := do
  let e ← e.reach p.layer
  return { e with column := ← e.column.setBlock p value }

/-- Trims every layer, and says how many lost their arrays. -/
def trimAll : Nat × Edit :=
  let (count, column) := e.column.trimAll
  (count, { e with column })

def sectionLock (layer : Int) : Run (SectionLock × Edit) := do
  let e ← e.reach layer
  let (lock, column) ← e.column.sectionLock layer
  return (lock, { e with column })

/-! ## Biomes -/

/-- The biome grid of a layer of which any cell was set. -/
def biomes? (layer : Int) : Option (Vector (Option Biome) sectionBiomes) :=
  e.biomes.grid? (e.column.offset? layer)

def hasBiomes (layer : Int) : Bool := (e.biomes? layer).isSome

/-- The biome at a position, if it was set. -/
def getBiome (p : Position) : Option Biome := do (← e.biomes? p.layer)[p.biomeIndex]

/-- Sets the biome of the whole cell that contains a position. -/
def setBiome (p : Position) (biome : Biome) : Run Edit := do
  let e ← e.reach p.layer
  return { e with
    biomes := e.biomes.update e.layerCount (e.offset p.layer) none (·.set p.biomeIndex (some biome)) }

/-! ## Light -/

def light : LightKind → Channel UInt8 sectionBlocks
  | .block => e.blockLight
  | .sky => e.skyLight

/-- The edit with other grids of one kind of light. -/
def withLight (kind : LightKind) (light : Channel UInt8 sectionBlocks) : Edit :=
  match kind with
  | .block => { e with blockLight := light }
  | .sky => { e with skyLight := light }

/-- The light of a layer that was written. -/
def lightLayer? (kind : LightKind) (layer : Int) : Option (Vector UInt8 sectionBlocks) :=
  (e.light kind).grid? (e.column.offset? layer)

/-- The light at a position, `lightUnset` where nothing changes. -/
def getLight (kind : LightKind) (p : Position) : UInt8 :=
  match e.lightLayer? kind p.layer with
  | some light => light[p.blockIndex]
  | none => lightUnset

/-- Changes the light of a layer, which starts unset everywhere. -/
def updateLight (kind : LightKind) (layer : Int)
    (change : Vector UInt8 sectionBlocks → Vector UInt8 sectionBlocks) : Run Edit := do
  let e ← e.reach layer
  return e.withLight kind
    ((e.light kind).update e.layerCount (e.offset layer) lightUnset change)

/-- Sets the light of one block. The level is checked before anything grows. -/
def setLight (kind : LightKind) (p : Position) (value : UInt8) : Run Edit := do
  if maxLight < value then throw (.lightOutOfRange value)
  e.updateLight kind p.layer (·.set p.blockIndex value)

/-- Sets the light of every block of a layer. -/
def fillLight (kind : LightKind) (layer : Int) (value : UInt8) : Run Edit :=
  e.updateLight kind layer fun _ => Vector.replicate sectionBlocks value

/-- Takes the light of a whole layer from outside, levels unchecked. -/
def setLightLayer (kind : LightKind) (layer : Int) (light : Array UInt8) : Run Edit := do
  if h : light.size = sectionBlocks then
    e.updateLight kind layer fun _ => ⟨light, h⟩
  else throw .lightLayerLength

/-- Darkens a layer: its block light, and its sky light too if `sky` is set. -/
def removeLighting (layer : Int) (sky : Bool) : Run Edit := do
  let e ← e.fillLight .block layer 0
  if sky then e.fillLight .sky layer 0 else return e

/-- Makes a layer as bright as can be. -/
def setFullBright (layer : Int) : Run Edit := do
  (← e.fillLight .block layer maxLight).fillLight .sky layer maxLight

/-! ## Tiles, entities, height maps and flags -/

def setTile (p : Position) (tile : Tag) : Run Edit := do
  let e ← e.reach p.layer
  return { e with tiles := e.tiles.insert p.inColumn tile }

def getTile (p : Position) : Option Tag := e.tiles.find? p.inColumn

def setEntity (entity : Tag) : Edit := { e with entities := e.entities.insert entity }

def removeEntity (id : Nat) : Edit := { e with entityRemoves := e.entityRemoves.insert id }

def setHeightMap (kind : HeightMap) (heights : Array Int) : Edit :=
  { e with heightMaps := e.heightMaps.insert kind heights }

def setFastMode (on : Bool) : Edit := { e with fastMode := on }

def setBitMask (mask : Int) : Edit := { e with bitMask := mask }

/-! ## The edit as a whole -/

/-- Applying the edit would change nothing. -/
def isEmpty : Bool :=
  !e.biomes.isWritten && !e.blockLight.isWritten && !e.skyLight.isWritten && e.tiles.isEmpty &&
    e.entities.isEmpty && e.entityRemoves.isEmpty && e.heightMaps.isEmpty && e.column.isEmpty

/-- Drops all changes. The range and the arrays of the column stay. -/
def reset : Edit := { column := e.column.reset }

/-- An edit with the same changes that shares nothing with this one. -/
def copy : Run Edit := return { e with column := ← e.column.copy }

end Edit

end VoxelStore
