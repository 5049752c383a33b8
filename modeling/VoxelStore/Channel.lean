import VoxelStore.Extension
/-!
# Side data by layer

A channel holds a grid of cells for some layers of a column: the biomes of an edit, or its light. Nothing
is allocated before the first write; then there is one entry for every layer of the column, and a grid for
every layer that was written.
-/

namespace VoxelStore

/-- Grids of `n` cells by layer. -/
structure Channel (α : Type) (n : Nat) where
  /-- One entry per layer of the column, once anything was written. -/
  layers : Option (Array (Option (Vector α n))) := none

namespace Channel

variable {α : Type} {n : Nat} (ch : Channel α n)

def isWritten : Bool := ch.layers.isSome

/-- The grid of the layer at the given place. -/
def grid? (offset : Option Nat) : Option (Vector α n) :=
  ch.layers.bind fun layers => offset.bind fun i => layers[i]?.join

def grow (e : Extension) : Channel α n := ⟨ch.layers.map (e.apply none)⟩

/-- The channel of a column of `count` layers, with another grid at `offset`. -/
def put (count offset : Nat) (grid : Vector α n) : Channel α n :=
  ⟨some ((ch.layers.getD (Array.replicate count none)).setIfInBounds offset (some grid))⟩

/-- The channel of a column of `count` layers, with the grid at `offset` changed. A layer that has no grid
starts with `blank` cells. -/
def update (count offset : Nat) (blank : α) (change : Vector α n → Vector α n) : Channel α n :=
  ch.put count offset (change ((ch.grid? offset).getD (Vector.replicate n blank)))

end Channel

end VoxelStore
