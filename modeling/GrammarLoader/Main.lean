import GrammarLoader.Checker.Report

/-!
The command line of the checker.
-/

namespace GrammarLoader.Checker

def FileError.ofIO : IO.Error → FileError
  | .noFileOrDirectory .. => .notFound
  | .inappropriateType _ 21 _ => .isDirectory
  | .inappropriateType .. => .notDirectory
  | .invalidArgument .. => .nameTooLong
  | e => .other (toString e)

def readPath (path : String) : IO (Except FileError ByteArray) := do
  try return .ok (← IO.FS.readBinFile path)
  catch e => return .error (.ofIO e)

def readPaths (paths : List String) : IO Files := do
  let found ← paths.mapM fun path => return (path, ← readPath path)
  return ⟨fun path => (found.lookup path).getD (.error .notFound)⟩

def plainLine (_ : Nat) (e : Event) : String := " WARN " ++ e.message ++ " grammar=" ++ e.grammar

/-- Warnings are written unless the log is turned off. -/
def logWriter (setting : Option String) : LogWriter :=
  if setting = some "off" then .silent else .warnings plainLine

end GrammarLoader.Checker

open GrammarLoader.Checker in
def main (args : List String) : IO UInt32 := do
  let files ← readPaths ((Arguments.parse args).elim [] Arguments.paths)
  let outcome := runLogging (logWriter (← IO.getEnv "AUTOMN_LOG")) files args
  IO.print outcome.stdout
  IO.eprint outcome.stderr
  return outcome.status
