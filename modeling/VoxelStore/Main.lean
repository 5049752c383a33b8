import VoxelStore.Demo
/-!
# The command line

Gathers the environment and the files that the demonstration run reads, and passes its log and its exit
code on.
-/

namespace VoxelStore

def readBytes (path : String) : IO (Except ReadProblem (List UInt8)) := do
  try
    return .ok (← IO.FS.readBinFile path).toList
  catch
    | .noFileOrDirectory .. => return .error .notFound
    | .inappropriateType _ 20 _ => return .error .notADirectory
    | .inappropriateType _ 21 _ => return .error .isDirectory
    | error => return .error (.other (toString error))

def readEnvironment : IO Environment := do
  match ← readBytes "/proc/self/environ" with
  | .ok block => return .ofBlock block
  | .error _ => return {}

/-- The `.env` file of this directory, or of the nearest directory above that has one. -/
def readDotEnv : IO (Option (List UInt8)) := do
  let depth := ((toString (← IO.currentDir)).splitOn "/").length
  for up in List.range depth do
    match ← readBytes (String.join (List.replicate up "../") ++ ".env") with
    | .ok content => return some content
    | .error .notFound => continue
    | .error _ => return none
  return none

end VoxelStore

open VoxelStore in
def main : IO UInt32 := do
  let env ← readEnvironment
  let dotEnv ← readDotEnv
  let file ← match (Settings.withFile env dotEnv).toOption.bind Settings.filePath? with
    | some path => readBytes (String.ofList path)
    | none => pure (.error .notFound)
  let outcome := Demo.run env dotEnv fun _ => file
  for line in outcome.log do IO.eprintln line
  return UInt32.ofNat outcome.exit
