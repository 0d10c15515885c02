/-
A compilation in progress.

A session collects everything a compilation leaves behind: the diagnostics, the rows
of both tables, the references, and the markup of other extensions it came across.
It changes only by operations, and an operation only ever adds.

The readers of elements never see a session.  What they produce is a list of actions,
which `Session.perform` carries out one by one.  Most actions are operations as they
stand; the two that emit a row are carried out only while the gate is open, which
depends on the policy and on whether an error has been reported.  So what a reader
reports cannot depend on what was reported before it, and what it emits depends on
that in one place only.
-/
import UrlReservations.Diagnostic
import UrlReservations.Platform
import UrlReservations.Record
import UrlReservations.Table
import UrlReservations.Vocabulary

namespace UrlReservations

/-- An attribute or element of another extension. -/
structure ExtensionItem where
  /-- The element that carries the attribute, or the parent of the element. -/
  owner : String
  /-- The namespace, empty if there is none. -/
  uri : String
  name : String
  pos : Position
  deriving DecidableEq

namespace ExtensionItem

/-- An attribute of another extension, on the element that carries it. -/
def ofAttribute (element : Xml.Element) (a : Xml.Attribute) : ExtensionItem :=
  ⟨element.name, a.uri?.getD "", a.name, a.pos⟩

/-- An element of another extension, under its parent. -/
def ofElement (parent element : Xml.Element) : ExtensionItem :=
  ⟨parent.name, element.uri?.getD "", element.name, element.pos⟩

/-- The warning that an attribute is ignored. -/
def attributeWarning (item : ExtensionItem) : Diagnostic :=
  ⟨item.pos, .unsupportedExtensionAttribute item.owner item.uri item.name⟩

/-- The warning that an element is ignored. -/
def elementWarning (item : ExtensionItem) : Diagnostic :=
  ⟨item.pos, .unsupportedExtensionElement item.owner item.uri item.name⟩

end ExtensionItem

/-- What can be done to a session. -/
inductive Operation where
  /-- Report a diagnostic. -/
  | report (d : Diagnostic)
  /-- Add a row to the reservation table; a used identifier is reported at the position instead. -/
  | addReservation (pos : Position) (row : UrlReservation)
  /-- Add a row to the entry table; a used identifier is reported at the position instead. -/
  | addAce (pos : Position) (row : UrlAce)
  /-- Add a reference; one that is there already is not added again. -/
  | addReference (reference : Reference)
  /-- Record an attribute of another extension, with a warning. -/
  | extensionAttribute (item : ExtensionItem)
  /-- Record an element of another extension, with a warning. -/
  | extensionElement (item : ExtensionItem)
  deriving DecidableEq

/-- What a reader of elements asks for. -/
inductive Action where
  /-- An operation, carried out in any case. -/
  | always (operation : Operation)
  /-- Emit a reservation with its references, if the gate is open. -/
  | emitReservation (pos : Position) (row : UrlReservation)
  /-- Emit an access control entry, if the gate is open. -/
  | emitAce (pos : Position) (row : UrlAce)
  deriving DecidableEq

namespace Action

/-- Report a diagnostic. -/
def report (d : Diagnostic) : Action := .always (.report d)

/-- Hand an attribute over to whichever extension owns it. -/
def forwardAttribute (element : Xml.Element) (a : Xml.Attribute) : Action :=
  .always (.extensionAttribute (.ofAttribute element a))

/-- Hand an element over to whichever extension owns it. -/
def forwardElement (parent element : Xml.Element) : Action :=
  .always (.extensionElement (.ofElement parent element))

end Action

/-- When rows stop being emitted. -/
inductive Policy where
  /-- As soon as an error has been reported. -/
  | strict
  /-- Never. -/
  | lenient
  deriving DecidableEq

/-- Everything a compilation has produced so far. -/
structure Session where
  platform : Platform
  /-- The diagnostics in the order they were reported. -/
  diagnostics : List Diagnostic
  /-- Whether an error is among the diagnostics, kept so that emission need not search for one. -/
  encounteredError : Bool
  reservations : Table UrlReservation.id
  aces : Table UrlAce.id
  references : Table (id : Reference → Reference)
  extensionAttributes : List ExtensionItem
  extensionElements : List ExtensionItem
  deriving DecidableEq

/-- What a finished compilation delivers. -/
structure Output where
  diagnostics : List Diagnostic
  /-- The rows and references, withheld if any error was reported. -/
  records? : Option RecordSet

/-- The number of errors among the diagnostics. -/
def Output.errorCount (output : Output) : Nat := output.diagnostics.countP (·.isError)

namespace Session

/-- A session in which nothing has happened. -/
def start (platform : Platform) : Session := ⟨platform, [], false, .empty, .empty, .empty, [], []⟩

/-! ### Operations -/

/-- Add a diagnostic. -/
def report (s : Session) (d : Diagnostic) : Session :=
  { s with
    diagnostics := s.diagnostics ++ [d]
    encounteredError := s.encounteredError || d.isError }

/-- Add a row to the reservation table, or report that its identifier is in use. -/
def addReservation (s : Session) (pos : Position) (row : UrlReservation) : Session :=
  match s.reservations.insert? row with
  | some table => { s with reservations := table }
  | none => s.report ⟨pos, .duplicateSymbol Vocabulary.urlReservationTable row.id.text⟩

/-- Add a row to the entry table, or report that its identifier is in use. -/
def addAce (s : Session) (pos : Position) (row : UrlAce) : Session :=
  match s.aces.insert? row with
  | some table => { s with aces := table }
  | none => s.report ⟨pos, .duplicateSymbol Vocabulary.urlAceTable row.id.text⟩

/-- Add a reference that is not there yet. -/
def addReference (s : Session) (reference : Reference) : Session :=
  { s with references := s.references.insertNew reference }

/-- Carry out an operation. -/
def apply (s : Session) : Operation → Session
  | .report d => s.report d
  | .addReservation pos row => s.addReservation pos row
  | .addAce pos row => s.addAce pos row
  | .addReference reference => s.addReference reference
  | .extensionAttribute item =>
    { s.report item.attributeWarning with extensionAttributes := s.extensionAttributes ++ [item] }
  | .extensionElement item =>
    { s.report item.elementWarning with extensionElements := s.extensionElements ++ [item] }

/-! ### Actions -/

/-- Whether rows may be emitted. -/
def gateOpen (policy : Policy) (s : Session) : Bool :=
  match policy with
  | .strict => !s.encounteredError
  | .lenient => true

/-- Add a reservation and refer to the custom actions that schedule it on the platform. -/
def emitReservation (s : Session) (pos : Position) (row : UrlReservation) : Session :=
  let actions := s.platform.scheduledActions
  ((s.addReservation pos row).addReference
      ⟨Vocabulary.customActionTable, actions.install⟩).addReference
    ⟨Vocabulary.customActionTable, actions.uninstall⟩

/-- Carry out an action. -/
def act (policy : Policy) (s : Session) : Action → Session
  | .always operation => s.apply operation
  | .emitReservation pos row => if s.gateOpen policy then s.emitReservation pos row else s
  | .emitAce pos row => if s.gateOpen policy then s.addAce pos row else s

/-- Carry out actions in order. -/
def perform (policy : Policy) (s : Session) (actions : List Action) : Session :=
  actions.foldl (act policy) s

@[simp] theorem perform_nil (policy : Policy) (s : Session) : s.perform policy [] = s := rfl

@[simp] theorem perform_cons (policy : Policy) (s : Session) (action : Action)
    (actions : List Action) :
    s.perform policy (action :: actions) = (s.act policy action).perform policy actions := rfl

/-- Carrying out one list after another is carrying out both as one. -/
@[simp] theorem perform_append (policy : Policy) (s : Session) (first second : List Action) :
    s.perform policy (first ++ second) = (s.perform policy first).perform policy second := by
  simp [perform]

/-! ### Results -/

/-- The rows and references of a session, whether or not errors were reported. -/
def records (s : Session) : RecordSet := ⟨s.reservations.rows, s.aces.rows, s.references.rows⟩

/-- Finish a compilation: the records are delivered only if no error was reported. -/
def output (s : Session) : Output :=
  ⟨s.diagnostics, if s.encounteredError then none else some s.records⟩

end Session

end UrlReservations
