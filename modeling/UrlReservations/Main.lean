/-
The program.

Everything is decided by the plan of the invocation; what is left here is to read the
source, to print, and to write.
-/
import UrlReservations.CommandLine.Plan

namespace UrlReservations.CommandLine

/-- The file error that a failed access to a file means. -/
def fileErrorOf : IO.Error → FileError
  | .noFileOrDirectory .. => .notFound
  | .inappropriateType _ 20 _ => .notADirectory
  | .inappropriateType .. => .isADirectory
  | error => .other (toString error)

/-- Read the source of an invocation. -/
def readSource (path : String) : IO (Except FileError ByteArray) :=
  try return .ok (← IO.FS.readBinFile path)
  catch error => return .error (fileErrorOf error)

/-- Print the last line of the log for a failure. -/
def logFailure (failure : Failure) : IO UInt32 := do
  IO.eprintln (failureLine failure)
  return 1

/-- Carry out a plan on the machine; the answer is the exit code. -/
def Plan.execute (plan : Plan) : IO UInt32 := do
  plan.log.forM fun line => IO.eprintln line
  match plan.delivery with
  | .refuse failure => logFailure failure
  | .print text =>
    IO.print text
    return 0
  | .save path text receipt =>
    try IO.FS.writeFile path text
    catch error => return ← logFailure (.file (fileErrorOf error))
    IO.eprintln receipt
    return 0

/-- A short account of how the program is called. -/
def usage : String := "Usage: compile [--platform NAME] [--format yaml|json] [--output PATH] INPUT"

/-- Run the program with its arguments; the answer is the exit code. -/
def runProgram (args : List String) : IO UInt32 := do
  match parse args with
  | .ok invocation => (invocation.plan (← readSource invocation.input)).execute
  | .error error =>
    if error.exitCode = 0 then IO.println usage else IO.eprintln usage
    return UInt32.ofNat error.exitCode

end UrlReservations.CommandLine

/-- The entry point. -/
def main (args : List String) : IO UInt32 := UrlReservations.CommandLine.runProgram args
