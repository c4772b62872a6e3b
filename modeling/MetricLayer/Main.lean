import MetricLayer.CommandLine.Run
import MetricLayer.Service.RequestId
import Std.Time.Zoned

/-!
# The program

Reads the arguments, does what they ask for and writes the output.
-/

namespace MetricLayer.Program

/-- Why a file could not be read. -/
def fileFailure : IO.Error → FileFailure
  | .noFileOrDirectory .. => .missing
  | .noSuchThing .. => .missing
  | .inappropriateType _ code _ => if code = 20 then .underFile else .directory
  | .permissionDenied .. => .refused
  | e => .other (toString e)

/-- The text of a file. -/
def readFile (path : String) : IO FileText := do
  try
    return .ok (← IO.FS.readFile path)
  catch e => return .error (fileFailure e)

/-- The local date. -/
def localDate : IO Date := do
  let d ← Std.Time.PlainDate.now
  return (Date.ofCivil? d.year d.month.val.toNat d.day.val.toNat).getD Date.first

/-- The environment and the files of the process. -/
def processSurroundings : IO (Surroundings IO) := do
  let today ← localDate
  let bytes ← IO.getRandomBytes RequestId.byteCount.toUSize
  return {
    today
    requestId := RequestId.ofBytes (bytes.toList.map (·.toNat))
    environment := fun name => IO.getEnv name
    read := readFile }

/-- The output for the arguments. -/
def outputOf (arguments : List String) : IO Output :=
  match Invocation.ofArguments arguments with
  | .error e => return .ofUsageError e
  | .ok i => do i.output (← processSurroundings)

end MetricLayer.Program

open MetricLayer

def main (arguments : List String) : IO UInt32 := do
  let output ← Program.outputOf arguments
  IO.print (Output.textOf output.lines)
  IO.eprint (Output.textOf output.complaints)
  return output.code.toUInt32
