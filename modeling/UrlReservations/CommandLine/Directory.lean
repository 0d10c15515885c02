/-
Running in a directory of files.

A directory is a list of files by name, without subdirectories.  Paths are resolved in
it as a file system would, so a plan can be carried out on it and the result looked at
as a value.
-/
import UrlReservations.CommandLine.Plan

namespace UrlReservations.CommandLine

/-- The files of a directory, by name. -/
structure Directory where
  files : List (String × ByteArray)

/-- What a path leads to. -/
inductive Target where
  /-- The directory itself. -/
  | directory
  /-- A file of the directory, which need not exist. -/
  | file (name : String)
  /-- The same, but with a slash at the end, as if it were a directory. -/
  | slashed (name : String)
  /-- Nothing, for a reason. -/
  | nowhere (error : FileError)

namespace Directory

/-- The content of a file. -/
def find? (directory : Directory) (name : String) : Option ByteArray := directory.files.lookup name

/-- The parts of a path between its slashes. -/
def parts : List Char → List (List Char)
  | [] => [[]]
  | c :: rest =>
    match parts rest with
    | [] => [[c]]
    | part :: more => if c = '/' then [] :: part :: more else (c :: part) :: more

/-- Whether a part of a path stays where it is. -/
def stays (part : List Char) : Bool := part = [] || part = ['.']

/-- Follow the parts of a relative path. -/
def follow (directory : Directory) : List (List Char) → Target
  | [] => .directory
  | part :: rest =>
    if stays part then directory.follow rest
    else if part = ['.', '.'] then .nowhere .notFound
    else
      let name := String.ofList part
      if rest.isEmpty then .file name
      else if rest.all (·.isEmpty) then .slashed name
      else .nowhere (if (directory.find? name).isSome then .notADirectory else .notFound)

/-- What a path leads to; nothing is known outside the directory. -/
def resolve (directory : Directory) (path : String) : Target :=
  if path.toList.head? = some '/' then .nowhere .notFound else directory.follow (parts path.toList)

/-- Read the file a path leads to. -/
def read (directory : Directory) (path : String) : Except FileError ByteArray :=
  match directory.resolve path with
  | .directory => .error .isADirectory
  | .nowhere error => .error error
  | .file name =>
    match directory.find? name with
    | some content => .ok content
    | none => .error .notFound
  | .slashed name => .error (if (directory.find? name).isSome then .notADirectory else .notFound)

/-- Replace the content of the file a path leads to, or create it. -/
def write (directory : Directory) (path : String) (content : ByteArray) :
    Except FileError Directory :=
  match directory.resolve path with
  | .directory | .slashed _ => .error .isADirectory
  | .nowhere error => .error error
  | .file name => .ok ⟨(name, content) :: directory.files.filter (·.1 ≠ name)⟩

end Directory

/-- What a run leaves behind. -/
structure Outcome where
  exitCode : Nat
  /-- What stands on standard output. -/
  printed : String
  /-- The lines of the log. -/
  log : List String
  directory : Directory

/-- Carry out a plan in a directory. -/
def Plan.carryOut (plan : Plan) (directory : Directory) : Outcome :=
  match plan.delivery with
  | .refuse failure => ⟨1, "", plan.log ++ [failureLine failure], directory⟩
  | .print text => ⟨0, text, plan.log, directory⟩
  | .save path text receipt =>
    match directory.write path text.toUTF8 with
    | .ok written => ⟨0, "", plan.log ++ [receipt], written⟩
    | .error error => ⟨1, "", plan.log ++ [failureLine (.file error)], directory⟩

/-- Run an invocation in a directory. -/
def Invocation.run (invocation : Invocation) (directory : Directory) : Outcome :=
  (invocation.plan (directory.read invocation.input)).carryOut directory

end UrlReservations.CommandLine
