/-!
# Compound tags

Data of a tile or an entity as the host serialised it. The store passes it on untouched and keeps only the
bytes.
-/

namespace VoxelStore

/-- An encoded compound. -/
structure Tag where
  bytes : List UInt8
  deriving DecidableEq, Repr

end VoxelStore
