import VoxelStore.Palette.Section
/-!
# Encoding biomes

The biome grid of a section in stored form. A grid rarely holds more than a handful of biomes, so its
palette is searched from the front. There is no least width; beyond eight biomes the entries are global
ids.
-/

namespace VoxelStore

namespace BiomeGrid

/-- The palette with `biome` at its end, unless the palette has it already. -/
def note (palette : Array UInt32) (biome : UInt32) : Array UInt32 :=
  if palette.contains biome then palette else palette.push biome

/-- The distinct biomes in the order in which they are first seen. -/
def palette (cells : Array UInt32) : Array UInt32 := cells.foldl note #[]

/-- The grid with the default in every cell that is unset. -/
def resolved (defaultBiome : Biome) (cells : Array (Option Biome)) : Array UInt32 :=
  cells.map fun cell => (cell.getD defaultBiome).toUInt32

/-- Encodes a grid. It has to have one section's worth of cells. -/
def encode (cells : Array (Option Biome)) (defaultBiome : Biome) (g : GlobalPalette) :
    Except Fault PalettedSection := do
  if cells.size ≠ sectionBiomes then throw .biomeGridLength
  let biomes := resolved defaultBiome cells
  let palette := palette biomes
  match PaletteKind.biomes.localBits palette.size with
  | some 0 => return .single .biomes (biomes[0]?.getD defaultBiome.toUInt32) 0
  | some bits =>
    let indices := biomes.map fun biome => UInt32.ofNat (palette.idxOf biome)
    return ⟨.biomes, .indirect palette, ← Packed.ofValues bits indices, 0⟩
  | none =>
    return ⟨.biomes, .global, ← Packed.ofValues g.bits (← biomes.mapM g.idOf), 0⟩

end BiomeGrid

end VoxelStore
