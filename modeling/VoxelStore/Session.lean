import VoxelStore.Event
import VoxelStore.Fault
/-!
# The session around the store

A session has one cell width, decided once, a supply of section locks and a log. `Run` is a computation
that may change these and may end in a fault; what was logged before a fault stays logged.
-/

namespace VoxelStore

/-- A handle of the lock of one section. Two handles are the same lock when they have the same number. -/
structure SectionLock where
  id : Nat
  deriving DecidableEq, Repr

/-- What all objects of one session share. -/
structure Session where
  /-- The cell width, once it is decided. -/
  width : Option ArrayWidth := none
  /-- The number of the next lock. Every lock handed out so far has a smaller one. -/
  nextLock : Nat := 0
  /-- The locks that are held. -/
  held : List SectionLock := []
  /-- The log, oldest event first. -/
  events : Array Event := #[]

/-- A computation in a session, which may end in a fault. -/
abbrev Run := EStateM Fault Session

namespace Run

def emit (e : Event) : Run Unit :=
  modify fun p => { p with events := p.events.push e }

/-- Runs a computation that only may fault. -/
def ofExcept : Except Fault α → Run α
  | .ok a => pure a
  | .error f => throw f

instance : MonadLift (Except Fault) Run := ⟨ofExcept⟩

end Run

namespace ArrayWidth

/-- Decides the width of the session from the size of its registry, unless it is decided already, and
gives the decided one. -/
def settle (states : UInt32) : Run ArrayWidth := do
  let width := (← get).width.getD (forStateCount states)
  modify fun p => { p with width := some width }
  Run.emit (.widthSettled width states)
  return width

/-- The width of the session. Asked before it is decided it becomes wide, which holds every ordinal. -/
def current : Run ArrayWidth := do
  match (← get).width with
  | some width => return width
  | none =>
    Run.emit .widthAssumed
    modify fun p => { p with width := some .wide }
    return .wide

end ArrayWidth

namespace SectionLock

/-- Takes the lock if nobody holds it, and says whether it did. -/
def tryAcquire (l : SectionLock) : Run Bool := do
  if l ∈ (← get).held then return false
  modify fun p => { p with held := l :: p.held }
  return true

def release (l : SectionLock) : Run Unit :=
  modify fun p => { p with held := p.held.erase l }

end SectionLock

end VoxelStore
