import VoxelStore.Fault
/-!
# Growth of a column

A column grows by whole layers, above its top or below its bottom. Whatever is kept per layer has to grow
in step: `applyWith` does that for any array with one entry per layer.
-/

namespace VoxelStore

/-- How a column grew to reach a layer. -/
structure Extension where
  /-- The number of layers added. -/
  diff : Nat
  /-- The layers were added above the top. -/
  append : Bool
  deriving DecidableEq, Repr

namespace Extension

/-- `n` values made one after the other, and what is left to make more of them. -/
def make (fresh : σ → α × σ) : Nat → σ → List α × σ
  | 0, s => ([], s)
  | n + 1, s =>
    let (a, s) := fresh s
    let (rest, s) := make fresh n s
    (a :: rest, s)

/-- The array with new entries for the added layers, made from the lowest layer up. -/
def applyWith (e : Extension) (fresh : σ → α × σ) (items : Array α) (s : σ) : Array α × σ :=
  let (added, s) := make fresh e.diff s
  (if e.append then items ++ added.toArray else added.toArray ++ items, s)

/-- The array with new entries of `entryBytes` bytes each, unless they are too many for any memory. -/
def extend (e : Extension) (entryBytes : Nat) (fresh : σ → α × σ) (items : Array α) (s : σ) :
    Except Fault (Array α × σ) := do
  checkTable (items.size + e.diff) entryBytes
  return e.applyWith fresh items s

theorem length_make (fresh : σ → α × σ) (n : Nat) (s : σ) : (make fresh n s).1.length = n := by
  induction n generalizing s with
  | zero => rfl
  | succ n ih => simp [make, ih]

theorem size_applyWith (e : Extension) (fresh : σ → α × σ) (items : Array α) (s : σ) :
    (e.applyWith fresh items s).1.size = items.size + e.diff := by
  unfold applyWith
  cases e.append <;> simp [length_make, Nat.add_comm]

/-- The array with the same entry for every added layer. -/
def apply (e : Extension) (a : α) (items : Array α) : Array α :=
  (e.applyWith (fun _ => (a, ())) items ()).1

end Extension

end VoxelStore
