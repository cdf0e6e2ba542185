import RecordStore.Command.Run

/-!
# The program

Reads what stands under the paths on the command line, runs the command and writes the store back.
-/

namespace RecordStore.Main

open Command

private def osError : IO.Error → OsError
  | .inappropriateType _ 21 _ => .isADirectory
  | .inappropriateType .. => .notADirectory
  | .permissionDenied .. => .permissionDenied
  | .invalidArgument .. => .nameTooLong
  | _ => .noSuchFile

/-- What stands under `path`. -/
private def entryAt (path : String) : IO Entry := do
  try return .regular (SparseFile.ofBytes (← IO.FS.readBinFile path))
  catch e =>
    match osError e with
    | .noSuchFile => return .missing
    | cause => return .blocked cause

/-- Whether two paths go by the same names. -/
private def samePath (path other : String) : Bool :=
  let names (path : String) := (path.splitOn "/").filter fun name => name ≠ "" ∧ name ≠ "."
  path.startsWith "/" = other.startsWith "/" && names path = names other

/-- The path that the payload is read from, unless it is that of the store. -/
private def inputPath? (arguments : Arguments) : Option String :=
  match arguments.action with
  | .put _ (some (.file path)) => if samePath path arguments.file then none else some path
  | _ => none

private def standardInput (arguments : Arguments) : IO ByteArray := do
  match arguments.action with
  | .put _ (some .standardInput) => (← IO.getStdin).readBinToEnd
  | _ => return ByteArray.empty

/-- Runs the command on what is there.  A store that cannot be created is reported like one that cannot be opened. -/
private def runOn (arguments : Arguments) : IO Outcome := do
  let input ← match inputPath? arguments with
    | some path => some <$> entryAt path
    | none => pure none
  let around : Surroundings :=
    { entry := ← entryAt arguments.file, input, standardInput := ← standardInput arguments }
  let outcome := run arguments around
  match outcome.file with
  | none => return outcome
  | some file =>
    try
      IO.FS.writeBinFile arguments.file (file.read 0 file.length)
      return outcome
    catch e => return run arguments { around with entry := .blocked (osError e) }

private def report (outcome : Outcome) : IO UInt32 := do
  let output ← IO.getStdout
  output.write outcome.output
  output.flush
  if let some failure := outcome.failure then IO.eprint failure.report
  return UInt32.ofNat outcome.code

end RecordStore.Main

def main (arguments : List String) : IO UInt32 := do
  match RecordStore.Command.Arguments.ofList arguments with
  | .ok arguments => RecordStore.Main.report (← RecordStore.Main.runOn arguments)
  | .error fault =>
    IO.eprintln s!"error: {fault.message}"
    return 2
