import VoxelStore.Bits
import VoxelStore.Geometry
/-!
# Kinds of paletted sections

Blocks and biomes are stored the same way, but at their own resolution and with their own limits on the
width of a local palette index.
-/

namespace VoxelStore

/-- What a paletted section holds. -/
inductive PaletteKind where
  | blocks
  | biomes
  deriving DecidableEq, Repr

namespace PaletteKind

def name : PaletteKind → String
  | blocks => "Blocks"
  | biomes => "Biomes"

def entries : PaletteKind → Nat
  | blocks => sectionBlocks
  | biomes => sectionBiomes

/-- The least width of an index that is not zero. -/
def minBits : PaletteKind → Nat
  | blocks => 4
  | biomes => 0

/-- The greatest width of an index into a palette of the section's own. -/
def maxBits : PaletteKind → Nat
  | blocks => 8
  | biomes => 3

/-- The width of an index into a local palette of `len` values, or none when the palette is too large
and the section uses the global one. Only the lower 32 bits of the greatest index count. A width other
than zero is raised to the kind's least one, so that a palette grows for a while before its section is
packed anew. -/
def localBits (kind : PaletteKind) (len : Nat) : Option Nat :=
  let bits := bitLength ((len - 1) % UInt32.size)
  if kind.maxBits < bits then none
  else if 0 < bits then some (max kind.minBits bits)
  else some 0

end PaletteKind

end VoxelStore
