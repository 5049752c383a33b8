import VoxelStore.Error
/-!
# Height maps

A height map gives one height per column of blocks, for one of four questions. Its name is read without
regard to the case of its ASCII letters.
-/

namespace VoxelStore

/-- The question that a height map answers. -/
inductive HeightMap where
  | worldSurface
  | oceanFloor
  | motionBlocking
  | motionBlockingNoLeaves
  deriving DecidableEq, Repr

namespace HeightMap

def all : List HeightMap := [worldSurface, oceanFloor, motionBlocking, motionBlockingNoLeaves]

def name : HeightMap → String
  | worldSurface => "WORLD_SURFACE"
  | oceanFloor => "OCEAN_FLOOR"
  | motionBlocking => "MOTION_BLOCKING"
  | motionBlockingNoLeaves => "MOTION_BLOCKING_NO_LEAVES"

/-- The letters of a name with the capitals of ASCII made small. -/
def folded (name : String) : List Char := name.toList.map Char.toLower

def ofName (name : String) : Except StoreError HeightMap :=
  match all.find? fun kind => folded kind.name = folded name with
  | some kind => .ok kind
  | none => .error (.unknownHeightMap name)

/-- The place of a kind in the order. -/
def rank : HeightMap → Nat
  | worldSurface => 0
  | oceanFloor => 1
  | motionBlocking => 2
  | motionBlockingNoLeaves => 3

def le (a b : HeightMap) : Bool := a.rank ≤ b.rank

end HeightMap

end VoxelStore
