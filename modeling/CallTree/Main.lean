import CallTree.CommandLine.Run
import CallTree.Sample

/-! The command line. -/
open CallTree CallTree.CommandLine

/-- The bytes of a file, or why there are none. -/
def readFile (path : String) : IO (Except PathFault (List UInt8)) := do
  try
    return .ok (← IO.FS.readBinFile path).toList
  catch
    | .noFileOrDirectory .. => return .error .missing
    | .inappropriateType .. => return .error .directory
    | _ => return .error .unusable

/-- The variables that have a meaning here. -/
def readEnvironment : IO Config.Environment := do
  let names := ["QERES_DEBUG", "QERES_LOG_LEVEL", "QERES_FORMAT"]
  return (← names.mapM fun n => do return (← IO.getEnv n).map (n, ·)).filterMap id

def main (arguments : List String) : IO UInt32 := do
  let source := match Options.ofArguments arguments with
    | .ok o => o.request
    | .error _ => ""
  let file ← if source = "-" then pure (.error .missing)
    else readFile (if source = "" then "." else source)
  let input ← if source = "-" then (← IO.getStdin).readToEnd else pure ""
  let surroundings : Surroundings Store :=
    ⟨Sample.world.host, [("sample", Sample.values)], ← readEnvironment, fun _ => file, input⟩
  match ((CommandLine.run surroundings arguments).run.run World.initial).1 with
  | .ok outcome =>
    (← IO.getStdout).putStr outcome.output
    for line in outcome.errors do
      (← IO.getStderr).putStrLn line
    return UInt32.ofNat outcome.status
  | .error f =>
    (← IO.getStderr).putStrLn ("Fault: " ++ f.message?.getD "the request could not be answered")
    return 1
