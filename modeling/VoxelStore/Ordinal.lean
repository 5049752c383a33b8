/-!
# Block states and biomes

A block state is a dense ordinal. The first four ordinals mean the same in every registry: the
placeholder for "nothing here" and the three kinds of air.
-/

namespace VoxelStore

/-- The dense ordinal of a block state, one numbering for the whole session. -/
abbrev BlockState := UInt32

/-- The number of a biome in the biome registry. -/
abbrev Biome := UInt16

namespace BlockState

/-- Stands for "no edit here" and is never stored in a section. -/
def reserved : BlockState := 0

def air : BlockState := 1

def caveAir : BlockState := 2

def voidAir : BlockState := 3

/-- The air family counts the placeholder too, which is stored as air. -/
def isAir (v : BlockState) : Bool :=
  v == reserved || v == air || v == caveAir || v == voidAir

/-- What a section stores for `v`: air in place of the placeholder, and `v` itself otherwise. -/
def stored (v : BlockState) : BlockState :=
  if v = reserved then air else v

theorem stored_of_ne {v : BlockState} (h : v ≠ reserved) : v.stored = v := if_neg h

theorem stored_ne_reserved (v : BlockState) : v.stored ≠ reserved := by
  unfold stored
  split
  · decide
  · assumption

theorem stored_stored (v : BlockState) : v.stored.stored = v.stored :=
  stored_of_ne (stored_ne_reserved v)

/-- Storing the placeholder as air keeps it in the air family. -/
theorem isAir_stored (v : BlockState) : v.stored.isAir = v.isAir := by
  unfold stored
  split
  · next h => subst h; decide
  · rfl

end BlockState

end VoxelStore
