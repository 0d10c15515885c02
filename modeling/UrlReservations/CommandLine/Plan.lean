/-
What an invocation amounts to.

Running an invocation is reading one file, deciding, and then printing or writing.  The
decision is a plan: the lines to log, and what is delivered after them.  It depends on
nothing but the invocation and what reading the source gave, so all of it is settled
before anything is printed or written.
-/
import UrlReservations.CommandLine.Arguments
import UrlReservations.Compilation
import UrlReservations.Failure
import UrlReservations.Xml.Reader

namespace UrlReservations.CommandLine

/-- What is delivered in the end. -/
inductive Delivery where
  /-- Nothing, for a reason. -/
  | refuse (failure : Failure)
  /-- A text on standard output. -/
  | print (text : String)
  /-- A text in a file, and then a receipt. -/
  | save (path text receipt : String)
  deriving DecidableEq

/-- Lines for the log, and what is delivered after them. -/
structure Plan where
  log : List String
  delivery : Delivery
  deriving DecidableEq

/-- A diagnostic about a source as a line of the log. -/
def logLine (source : String) (d : Diagnostic) : String :=
  s!"{source}({d.pos}): {d.severity.name}: {d.message.text}"

/-- What is said about records that have been written to a file. -/
def receipt (records : RecordSet) (path : String) : String :=
  let reservations := records.urlReservations.length
  let aces := records.urlAces.length
  s!"Wrote {reservations} reservation(s), {aces} ACE(s) to {path}"

/-- The last line of the log if nothing is delivered. -/
def failureLine (failure : Failure) : String := s!"Error: {failure.message}"

/-- The document in a source that reading a file gave. -/
def documentOf (source : Except FileError ByteArray) : Except Failure Xml.Document :=
  match source with
  | .error error => .error (.file error)
  | .ok bytes =>
    match String.fromUTF8? bytes with
    | none => .error (.file .notText)
    | some text =>
      match Xml.Document.read text with
      | .error error => .error (.malformed error)
      | .ok doc => .ok doc

namespace Invocation

/-- How the records of a compilation are delivered. -/
def deliver (invocation : Invocation) (output : Output) : Delivery :=
  match output.records? with
  | none => .refuse (.errorsReported output.errorCount)
  | some records =>
    let text := invocation.format.render records
    match invocation.output? with
    | none => .print text
    | some path => .save path text (receipt records path)

/-- The plan of an invocation, given what reading its input gave. -/
def plan (invocation : Invocation) (source : Except FileError ByteArray) : Plan :=
  match documentOf source with
  | .error failure => ⟨[], .refuse failure⟩
  | .ok doc =>
    let output := (compile doc invocation.platform).output
    ⟨output.diagnostics.map (logLine invocation.input), invocation.deliver output⟩

end Invocation

end UrlReservations.CommandLine
