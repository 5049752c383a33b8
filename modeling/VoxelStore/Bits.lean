/-!
# Bit lengths

`bitLength n` is the number of binary digits of `n`, which is the least width that holds `n`.
-/

namespace VoxelStore

/-- The number of binary digits of `n`. Zero has none. -/
def bitLength (n : Nat) : Nat :=
  if n = 0 then 0 else n.log2 + 1

theorem bitLength_zero : bitLength 0 = 0 := rfl

end VoxelStore
