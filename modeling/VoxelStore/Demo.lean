import VoxelStore.Demo.Worker
import VoxelStore.Settings.Environment
/-!
# The demonstration run

The run reads the settings and the number of its workers and says what they did. It ends with an exit code
and the lines that it logged.
-/

namespace VoxelStore.Demo

def workersVariable : String := "CHUNKSTORE_WORKERS"

/-- The number of workers, four if no variable says otherwise. Blanks around the number are not allowed. -/
def workers (env : Environment) : Except StoreError Nat :=
  match env.lookup workersVariable.toList with
  | .unset => .ok 4
  | .notText raw => .error (.invalidConfig (.notUnicode workersVariable raw))
  | .text raw =>
    match Text.natBelow? UInt64.size raw with
    | some n => .ok n
    | none => .error (.invalidConfig (.unreadable workersVariable raw))

/-- How a run ended. -/
structure Outcome where
  exit : Nat
  /-- The log, oldest line first. -/
  log : List String
  deriving DecidableEq, Repr

def line (severity : Severity) (text : String) : String := severity.name ++ " " ++ text

def failed (log : List String) (error : StoreError) : Outcome :=
  ⟨1, log ++ [line .error error.message]⟩

/-- The settings of a run. Its workers place blocks outside of the air family, so there has to be one. -/
def settings (env : Environment) (readFile : List Char → Except ReadProblem (List UInt8)) :
    Except StoreError Settings × List Event :=
  match Settings.ofEnvironment env readFile with
  | .error error => (.error error, [])
  | .ok s => (if s.blockStates < 5 then .error (.invalidConfig .onlyAir) else .ok s, s.warnings)

/-- The exit code of a run that a fault ends. -/
def faultExit : Nat := 101

/-- The run under the settings that it has read, whose log so far is `log`. -/
def work (s : Settings) (count : Nat) (log : List String) : Outcome :=
  match Pool.forEdits s with
  | .error _ => ⟨faultExit, log⟩
  | .ok pool =>
    match runWorkers s pool count with
    | .error error => failed log error
    | .ok (report, idle) =>
      ⟨0, log ++ [line .info report.text, line .info s!"{idle} edits idle in the pool"]⟩

/-- The run in an environment that is complete. -/
def runIn (env : Environment) (readFile : List Char → Except ReadProblem (List UInt8)) : Outcome :=
  let (s, warnings) := settings env readFile
  let log := warnings.map Event.line
  match s with
  | .error error => failed log error
  | .ok s =>
    match workers env with
    | .error error => failed log error
    | .ok count =>
      work s count (log ++ [line .info
        s!"Running {count} workers, {editsPerWorker} edits each, pool of {s.poolSize}"])

/-- The whole run. The variables of the `.env` file, if there is one, are set before anything is logged. -/
def run (env : Environment) (dotEnv : Option (List UInt8))
    (readFile : List Char → Except ReadProblem (List UInt8)) : Outcome :=
  match Settings.withFile env dotEnv with
  | .error _ => ⟨faultExit, []⟩
  | .ok env => runIn env readFile

end VoxelStore.Demo
