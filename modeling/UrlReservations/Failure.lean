/-
What stops a compilation outright.

Problems in the authored markup are diagnostics and stop nothing by themselves.  A
failure is what the caller is told in the end: the source could not be read, a name
given by the caller means nothing, or errors were reported.
-/
import UrlReservations.Identifier
import UrlReservations.Platform
import UrlReservations.Xml.Error

namespace UrlReservations

/-- Why a file could not be read or written. -/
inductive FileError where
  | notFound
  | notADirectory
  | isADirectory
  /-- The content is not UTF-8. -/
  | notText
  /-- Anything else, in the words of the system. -/
  | other (text : String)
  deriving DecidableEq

/-- The wording of a file error. -/
def FileError.message : FileError → String
  | notFound => "No such file or directory (os error 2)"
  | notADirectory => "Not a directory (os error 20)"
  | isADirectory => "Is a directory (os error 21)"
  | notText => "stream did not contain valid UTF-8"
  | other text => text

/-- What stops a compilation outright. -/
inductive Failure where
  /-- A platform name that means no platform. -/
  | unknownPlatform (name : String)
  /-- An identifier that is not legal. -/
  | illegalIdentifier (text : String)
  /-- A source that is no document. -/
  | malformed (error : Xml.Error)
  /-- A file that could not be read or written. -/
  | file (error : FileError)
  /-- A source about which errors were reported, with their number. -/
  | errorsReported (count : Nat)
  deriving DecidableEq

/-- The wording of a failure. -/
def Failure.message : Failure → String
  | unknownPlatform name => s!"Invalid platform: '{name}'. Expected one of x86, x64, arm64"
  | illegalIdentifier text =>
    s!"Invalid identifier: '{text}'. Identifiers start with a letter or underscore, contain " ++
      "only letters, digits, underscores and periods, and are at most 72 characters"
  | malformed error => s!"XML parsing failed: {error.message}"
  | file error => s!"IO error: {error.message}"
  | errorsReported count => s!"Compilation failed with {count} error(s)"

/-- The platform a user means by a text. -/
def Platform.parse (text : String) : Except Failure Platform :=
  match ofText? text with
  | some platform => .ok platform
  | none => .error (.unknownPlatform text)

/-- Accept a legal identifier only. -/
def Identifier.validate (text : String) : Except Failure Identifier :=
  if isLegal text then .ok ⟨text⟩ else .error (.illegalIdentifier text)

end UrlReservations
