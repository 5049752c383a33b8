import VoxelStore.ArrayWidth
/-!
# Log events

What the store reports about its own work while it runs. An event has a severity and one line of text.
-/

namespace VoxelStore

/-- How serious a log line is, the least serious first. -/
inductive Severity where
  | trace
  | debug
  | info
  | warn
  | error
  deriving DecidableEq, Repr

/-- The name of a severity in front of a log line. -/
def Severity.name : Severity → String
  | trace => "TRACE"
  | debug => "DEBUG"
  | info => "INFO"
  | warn => "WARN"
  | error => "ERROR"

/-- The events that the store reports. -/
inductive Event where
  /-- The session was told the size of its registry. -/
  | widthSettled (width : ArrayWidth) (states : UInt32)
  /-- An array was wanted before the session was told. -/
  | widthAssumed
  | columnGrew (layers : Nat) (bottom top : Int)
  | poolWasEmpty
  | poolWasFull
  /-- A section has too many distinct states for a palette of its own. -/
  | globalFallback (distinct : Nat)
  | rangeUnusuallyTall (bottom top : Int)
  deriving DecidableEq, Repr

namespace Event

def severity : Event → Severity
  | widthSettled .. | poolWasEmpty => .debug
  | widthAssumed | rangeUnusuallyTall .. => .warn
  | columnGrew .. | poolWasFull | globalFallback _ => .trace

def text : Event → String
  | widthSettled width states => s!"Section arrays use {width.name} storage ({states} block states)"
  | widthAssumed => "Section array width requested before init, defaulting to wide storage"
  | columnGrew layers bottom top => s!"Section column grew by {layers} layer(s) to {bottom}..={top}"
  | poolWasEmpty => "Pool has no idle instance, creating a new one"
  | poolWasFull => "Pool is full, dropping recycled instance"
  | globalFallback distinct => s!"Section with {distinct} distinct states falls back to the global palette"
  | rangeUnusuallyTall bottom top => s!"Initial section range {bottom}..={top} is unusually tall"

def line (e : Event) : String := s!"{e.severity.name} {e.text}"

end Event

end VoxelStore
