import VoxelStore.Edit
/-!
# A pool of idle instances

The pool keeps a bounded number of cleared instances. Polling hands out the one that has waited longest
and makes a new one only if none waits; recycling clears an instance and keeps it if there is room. An
instance is therefore either idle or owned by whoever polled it.
-/

namespace VoxelStore

/-- Idle instances, the one that has waited longest first. -/
structure Pool (α : Type) where
  capacity : Nat
  idle : List α := []
  /-- Makes a new instance. -/
  build : Run α
  /-- Clears an instance for its next owner. -/
  clear : α → α

namespace Pool

variable {α : Type}

/-- A pool with room for at least one instance. -/
def create (capacity : Nat) (build : Run α) (clear : α → α) : Except Fault (Pool α) :=
  if capacity = 0 then .error .poolWithoutRoom else .ok { capacity, build, clear }

def poll (pool : Pool α) : Run (α × Pool α) := do
  match pool.idle with
  | first :: rest => return (first, { pool with idle := rest })
  | [] =>
    Run.emit .poolWasEmpty
    return (← pool.build, pool)

def recycle (pool : Pool α) (item : α) : Run (Pool α) := do
  if pool.idle.length < pool.capacity then
    return { pool with idle := pool.idle ++ [pool.clear item] }
  else
    Run.emit .poolWasFull
    return pool

/-- The bytes that a pool sets aside for an edit. -/
def editBytes : Nat := 368

/-- A pool of edits as large as the settings say, whose new edits span the initial range. The room for all
of them is set aside at once. -/
def forEdits (s : Settings) : Except Fault (Pool Edit) := do
  checkTable s.poolSize.toNat editBytes
  create s.poolSize.toNat (Edit.ofSettings s) Edit.reset

end Pool

end VoxelStore
