/-!
# Addresses inside a chunk column

A column is cut into layers of 16 blocks in height. Within a layer a block has an index below 4096,
height first, then `z`, then `x`; a biome cell covers 4 × 4 × 4 blocks and has an index below 64 in the
same order. Division and remainder round down, so heights below zero fall into layers below zero.
-/

namespace VoxelStore

/-- Blocks in one section, 16 on each axis. -/
abbrev sectionBlocks : Nat := 4096

theorem sectionBlocks_pos : 0 < sectionBlocks := by decide

/-- Biome cells in one section, 4 on each axis. -/
abbrev sectionBiomes : Nat := 64

/-- A block position. `x` and `z` count inside one column modulo 16; `y` is the world height. -/
structure Position where
  x : Int
  y : Int
  z : Int
  deriving DecidableEq, Repr

namespace Position

/-- The section layer that contains the height of the block. -/
def layer (p : Position) : Int := p.y / 16

/-- The same block with `x` and `z` reduced to the column. -/
def inColumn (p : Position) : Position := ⟨p.x % 16, p.y, p.z % 16⟩

/-- The place of the block inside its section. -/
def blockIndex (p : Position) : Fin sectionBlocks :=
  ⟨(p.y % 16 * 256 + p.z % 16 * 16 + p.x % 16).toNat, by unfold sectionBlocks; omega⟩

/-- The biome cell of the block inside its section. -/
def biomeIndex (p : Position) : Fin sectionBiomes :=
  ⟨(p.y % 16 / 4 * 16 + p.z % 16 / 4 * 4 + p.x % 16 / 4).toNat, by unfold sectionBiomes; omega⟩

/-- The order by `x`, then `y`, then `z`. -/
def le (p q : Position) : Bool :=
  p.x < q.x || p.x == q.x && (p.y < q.y || p.y == q.y && p.z ≤ q.z)

def text (p : Position) : String := s!"({p.x}, {p.y}, {p.z})"

end Position

end VoxelStore
