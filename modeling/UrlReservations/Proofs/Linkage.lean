/-
The platform decides what is referred to, and nothing else.

The platform of a session is asked in one place, when a reservation is emitted, and the answer
goes into the references, which nothing ever reads.  So two sessions that differ in these two
parts at most (`AgreeOffLinkage`) stay that way through every action, and all the rest of a
compilation is the same on every platform.

What the references are is a matter of one session.  They follow the reservations, whether or not
there were errors: a reservation that is refused finds the references made by the one that was
there before it, and one that is held back makes none.
-/
import UrlReservations.Proofs.References

namespace UrlReservations

open Xml (Document)

namespace Session

/-- Two sessions differ in their platforms and in their references at most. -/
structure AgreeOffLinkage (s t : Session) : Prop where
  diagnostics : s.diagnostics = t.diagnostics
  encounteredError : s.encounteredError = t.encounteredError
  reservations : s.reservations = t.reservations
  aces : s.aces = t.aces
  extensionAttributes : s.extensionAttributes = t.extensionAttributes
  extensionElements : s.extensionElements = t.extensionElements

namespace AgreeOffLinkage

variable {s t : Session}

theorem report (h : AgreeOffLinkage s t) (d : Diagnostic) :
    AgreeOffLinkage (s.report d) (t.report d) := by
  refine { h with diagnostics := ?_, encounteredError := ?_ }
  · rw [report_diagnostics, h.diagnostics, report_diagnostics]
  · rw [report_encounteredError, h.encounteredError, report_encounteredError]

/-- An identifier is in use in both or in neither. -/
theorem addReservation (h : AgreeOffLinkage s t) (pos : Position) (row : UrlReservation) :
    AgreeOffLinkage (s.addReservation pos row) (t.addReservation pos row) := by
  have hkeys : s.reservations.keys = t.reservations.keys := by rw [h.reservations]
  by_cases hmem : row.id ∈ s.reservations.keys
  · rw [addReservation_of_mem hmem, addReservation_of_mem (hkeys ▸ hmem)]
    exact h.report _
  · rw [addReservation_of_notMem hmem, addReservation_of_notMem (hkeys ▸ hmem)]
    exact { h with reservations := by rw [h.reservations] }

theorem addAce (h : AgreeOffLinkage s t) (pos : Position) (row : UrlAce) :
    AgreeOffLinkage (s.addAce pos row) (t.addAce pos row) := by
  have hkeys : s.aces.keys = t.aces.keys := by rw [h.aces]
  by_cases hmem : row.id ∈ s.aces.keys
  · rw [addAce_of_mem hmem, addAce_of_mem (hkeys ▸ hmem)]
    exact h.report _
  · rw [addAce_of_notMem hmem, addAce_of_notMem (hkeys ▸ hmem)]
    exact { h with aces := by rw [h.aces] }

/-- What a session refers to makes no difference. -/
theorem references (h : AgreeOffLinkage s t) (table table' : Table (id : Reference → Reference)) :
    AgreeOffLinkage { s with references := table } { t with references := table' } := { h with }

theorem gateOpen (h : AgreeOffLinkage s t) (policy : Policy) :
    s.gateOpen policy = t.gateOpen policy := by
  cases policy with
  | strict => rw [Session.gateOpen, h.encounteredError, Session.gateOpen]
  | lenient => rfl

/-- **No action tells platforms apart**, except in what it refers to. -/
theorem act (h : AgreeOffLinkage s t) (policy : Policy) (action : Action) :
    AgreeOffLinkage (s.act policy action) (t.act policy action) := by
  cases action with
  | always operation =>
    cases operation with
    | report d => exact h.report d
    | addReservation pos row => exact h.addReservation pos row
    | addAce pos row => exact h.addAce pos row
    | addReference reference => exact h.references _ _
    | extensionAttribute item =>
      exact { h.report item.attributeWarning with
        extensionAttributes := congrArg (· ++ [item]) h.extensionAttributes }
    | extensionElement item =>
      exact { h.report item.elementWarning with
        extensionElements := congrArg (· ++ [item]) h.extensionElements }
  | emitReservation pos row =>
    rw [Session.act, Session.act, h.gateOpen policy]
    split
    · -- the one place where the platform is asked
      exact ((h.addReservation pos row).references _ _).references _ _
    · exact h
  | emitAce pos row =>
    rw [Session.act, Session.act, h.gateOpen policy]
    split
    · exact h.addAce pos row
    · exact h

theorem perform (h : AgreeOffLinkage s t) (policy : Policy) (actions : List Action) :
    AgreeOffLinkage (s.perform policy actions) (t.perform policy actions) := by
  induction actions generalizing s t with
  | nil => exact h
  | cons action rest ih => exact ih (h.act policy action)

end AgreeOffLinkage

theorem start_agreeOffLinkage (platform platform' : Platform) :
    AgreeOffLinkage (start platform) (start platform') :=
  ⟨rfl, rfl, rfl, rfl, rfl, rfl⟩

end Session

/--
**The platform decides what is referred to, and nothing else.**

Compiling a document for two platforms leaves the same diagnostics, flag, rows and foreign markup.
With or without errors, a compilation that stored a reservation refers to exactly the two custom
actions of its platform, the one for installing first, and one that stored none refers to nothing.
-/
theorem platform_decides_references_only (doc : Document) :
    (∀ platform platform', (compile doc platform).AgreeOffLinkage (compile doc platform')) ∧
    ∀ platform,
      ((compile doc platform).reservations.rows = [] →
        (compile doc platform).references.rows = []) ∧
      ((compile doc platform).reservations.rows ≠ [] → (compile doc platform).references.rows =
        [⟨"CustomAction", platform.scheduledActions.install⟩,
          ⟨"CustomAction", platform.scheduledActions.uninstall⟩]) := by
  refine ⟨?_, ?_⟩
  · intro platform platform'
    exact (Session.start_agreeOffLinkage platform platform').perform .strict doc.actions
  · intro platform
    have hreferences := compile_references doc platform
    refine ⟨?_, ?_⟩
    · intro hnone
      rw [hreferences, hnone]
      rfl
    · intro hsome
      rw [hreferences, if_neg (by simpa using hsome)]
      rfl

end UrlReservations
