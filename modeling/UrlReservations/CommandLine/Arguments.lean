/-
The arguments of the command line.

The program has one subcommand, `compile`, which takes the path of a source and three
options with a value each.  A value may follow its option as the next argument, or be
attached to it.

A value that came as an argument of its own is *pending* until the next argument that
means something: only then is it checked.  So the first problem found is the leftmost
one, except that an argument nobody understands is reported before a pending value is
looked at.
-/
import UrlReservations.Format
import UrlReservations.Platform

namespace UrlReservations.CommandLine

/-- Why arguments give no invocation; asking for help or for the version is among the reasons. -/
inductive ArgumentError where
  | helpRequested
  | versionRequested
  | missingSubcommand
  | unknownSubcommand
  | unknownArgument
  /-- A flag with a value attached to it. -/
  | unexpectedValue
  /-- An option given twice. -/
  | repeatedOption
  /-- An option without a value, an empty path, or an unknown format. -/
  | illegalValue
  /-- A platform name that means no platform. -/
  | unknownPlatform
  | missingInput
  deriving DecidableEq

/-- The exit code for arguments that give no invocation: what was asked for is no failure. -/
def ArgumentError.exitCode : ArgumentError → Nat
  | helpRequested | versionRequested => 0
  | _ => 2

/-- What the program is asked to do. -/
structure Invocation where
  input : String
  platform : Platform
  format : Format
  /-- Where the records go, standard output if absent. -/
  output? : Option String
  deriving DecidableEq

/-! ### What an argument looks like -/

/-- An argument by its outer form. -/
inductive Form where
  /-- Two dashes alone: all arguments after it are positional. -/
  | escape
  /-- Two dashes and a name, with what follows an equals sign. -/
  | long (name : String) (value? : Option String)
  /-- One dash and a letter, with what follows the letter. -/
  | short (letter : Char) (attached : List Char)
  /-- Anything else, a single dash included. -/
  | word

/-- The outer form of an argument. -/
def formOf (arg : String) : Form :=
  match arg.toList with
  | ['-', '-'] => .escape
  | '-' :: '-' :: rest =>
    let name := rest.takeWhile (· ≠ '=')
    .long (String.ofList name) ((rest.drop name.length).tail?.map String.ofList)
  | '-' :: letter :: attached => .short letter attached
  | _ => .word

/-- The value attached to a letter, after an equals sign if there is one. -/
def attachedValue? : List Char → Option String
  | [] => none
  | '=' :: value => some (String.ofList value)
  | value => some (String.ofList value)

/-! ### The arguments of the subcommand -/

/-- What a value can be given for. -/
inductive Field where
  | input
  | platform
  | format
  | output
  deriving DecidableEq

/-- The options by their long name and their letter. -/
def options : List (String × Char × Field) :=
  [("platform", 'p', .platform), ("format", 'f', .format), ("output", 'o', .output)]

/-- The values accepted so far. -/
structure Given where
  input? : Option String
  platform? : Option Platform
  format? : Option Format
  output? : Option String

/-- Whether a field has a value. -/
def Given.has (given : Given) : Field → Bool
  | .input => given.input?.isSome
  | .platform => given.platform?.isSome
  | .format => given.format?.isSome
  | .output => given.output?.isSome

/-- Check a value for a field that has none yet. -/
def Given.set (given : Given) (value : String) : Field → Except ArgumentError Given
  | .input => if value = "" then .error .illegalValue else .ok { given with input? := some value }
  | .platform =>
    match Platform.ofText? value with
    | some platform => .ok { given with platform? := some platform }
    | none => .error .unknownPlatform
  | .format =>
    match Choice.ofToken? value with
    | some format => .ok { given with format? := some format }
    | none => .error .illegalValue
  | .output => if value = "" then .error .illegalValue else .ok { given with output? := some value }

/--
Accept a value for a field: there must be one, the field must have none yet, and the value must
be legal.
-/
def Given.accept (given : Given) (field : Field) (value? : Option String) :
    Except ArgumentError Given :=
  match value? with
  | none => .error .illegalValue
  | some value => if given.has field then .error .repeatedOption else given.set value field

/-- How far the arguments of the subcommand have been read. -/
structure Progress where
  given : Given
  /-- The field whose value is still to be checked, or still to come. -/
  pending? : Option (Field × Option String)
  /-- Whether the positional argument has been seen. -/
  hasInput : Bool
  /-- Whether all arguments are positional. -/
  escaped : Bool

namespace Progress

/-- Nothing read yet. -/
def start : Progress := ⟨⟨none, none, none, none⟩, none, false, false⟩

/-- Check the pending value. -/
def settle (p : Progress) : Except ArgumentError Progress :=
  match p.pending? with
  | none => .ok p
  | some (field, value?) => do
    return { p with given := ← p.given.accept field value?, pending? := none }

/-- Take an option: a value attached to it is accepted at once, one that is to follow is pending. -/
def takeOption (p : Progress) (field : Field) (value? : Option String) :
    Except ArgumentError Progress := do
  let p ← p.settle
  match value? with
  | some value => return { p with given := ← p.given.accept field (some value) }
  | none => return { p with pending? := some (field, none) }

/-- Take the positional argument, of which there is only one. -/
def takePositional (p : Progress) (value : String) : Except ArgumentError Progress :=
  if p.hasInput then .error .unknownArgument
  else do return { ← p.settle with pending? := some (.input, some value), hasInput := true }

/-- Take a word: the value that is to come, or else the positional argument. -/
def takeWord (p : Progress) (word : String) : Except ArgumentError Progress :=
  match p.pending? with
  | some (field, none) => .ok { p with pending? := some (field, some word) }
  | _ => p.takePositional word

/-- Give help, unless the pending value is at fault. -/
def giveHelp (p : Progress) : Except ArgumentError Progress := do
  let _ ← p.settle
  throw .helpRequested

/-- Take one argument of the subcommand. -/
def take (p : Progress) (arg : String) : Except ArgumentError Progress :=
  if p.escaped then p.takePositional arg
  else match formOf arg with
    | .escape => .ok { p with escaped := true }
    | .long "help" none => p.giveHelp
    | .long "help" (some _) => .error .unexpectedValue
    | .long name value? =>
      match options.find? (·.1 = name) with
      | some (_, _, field) => p.takeOption field value?
      | none => .error .unknownArgument
    | .short 'h' _ => p.giveHelp
    | .short letter attached =>
      match options.find? (·.2.1 = letter) with
      | some (_, _, field) => p.takeOption field (attachedValue? attached)
      | none => .error .unknownArgument
    | .word => p.takeWord arg

/-- The invocation, once all arguments have been taken; options not given have their defaults. -/
def finish (p : Progress) : Except ArgumentError Invocation := do
  let given := (← p.settle).given
  match given.input? with
  | none => throw .missingInput
  | some input => return ⟨input, given.platform?.getD .x86, given.format?.getD .yaml, given.output?⟩

end Progress

/-! ### All arguments -/

/-- The names of the subcommands. -/
def subcommands : List String := ["compile", "help"]

/-- The arguments of `compile`. -/
def parseCompile (args : List String) : Except ArgumentError Invocation := do
  (← args.foldlM Progress.take Progress.start).finish

/-- The arguments of `help`: at most the name of one subcommand. -/
def parseHelp : List String → ArgumentError
  | [] => .helpRequested
  | [name] => if subcommands.contains name then .helpRequested else .unknownSubcommand
  | _ => .unknownSubcommand

/-- The arguments of the program, its own name left out. -/
def parse : List String → Except ArgumentError Invocation
  | [] => .error .missingSubcommand
  | arg :: rest =>
    match formOf arg with
    | .escape =>
      match rest with
      | [] => .error .missingSubcommand
      | name :: _ =>
        .error (if subcommands.contains name then .unknownArgument else .unknownSubcommand)
    | .long name value? =>
      match name, value? with
      | "help", none => .error .helpRequested
      | "version", none => .error .versionRequested
      | name, _ =>
        .error (if ["help", "version"].contains name then .unexpectedValue else .unknownArgument)
    | .short letter _ =>
      .error (if letter = 'h' then .helpRequested else if letter = 'V' then .versionRequested
        else .unknownArgument)
    | .word =>
      if arg = "compile" then parseCompile rest
      else if arg = "help" then .error (parseHelp rest)
      else .error .unknownSubcommand

end UrlReservations.CommandLine
