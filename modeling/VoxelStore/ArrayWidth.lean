import VoxelStore.Ordinal
/-!
# Cell widths

A section array keeps its ordinals in narrow (16-bit) or wide (32-bit) cells. One width serves a whole
process; the number of block states decides it.
-/

namespace VoxelStore

/-- The size of the cells of a section array. -/
inductive ArrayWidth where
  | narrow
  | wide
  deriving DecidableEq, Repr

namespace ArrayWidth

/-- The name of a width as it stands in messages. -/
def name : ArrayWidth → String
  | narrow => "Narrow"
  | wide => "Wide"

def maxOrdinal : ArrayWidth → BlockState
  | narrow => 0xFFFF
  | wide => 0xFFFFFFFF

def Holds (w : ArrayWidth) (v : BlockState) : Prop := v ≤ w.maxOrdinal

instance (w : ArrayWidth) (v : BlockState) : Decidable (w.Holds v) :=
  inferInstanceAs (Decidable (v ≤ w.maxOrdinal))

/-- Narrow cells serve a registry of fewer than 65535 block states. -/
def forStateCount (states : UInt32) : ArrayWidth :=
  if states < 0xFFFF then narrow else wide

theorem holds_wide (v : BlockState) : wide.Holds v := by
  simp only [Holds, maxOrdinal, UInt32.le_iff_toNat_le]
  have := v.toNat_lt
  simp
  omega

theorem holds_zero (w : ArrayWidth) : w.Holds 0 := by
  cases w <;> decide

/-- The width chosen for a registry holds every ordinal of it. -/
theorem holds_of_lt_stateCount {states v : UInt32} (h : v < states) : (forStateCount states).Holds v := by
  unfold forStateCount
  split
  · next hs =>
    simp only [Holds, maxOrdinal, UInt32.le_iff_toNat_le, UInt32.lt_iff_toNat_lt] at *
    exact Nat.le_of_lt (Nat.lt_trans h hs)
  · exact holds_wide v

end ArrayWidth

end VoxelStore
