/-
No diagnostic hides another.

A session can hold rows back and refuse identifiers, and both depend on what came before.
What it reports must not: an author who fixes one error should not meet an older one that the
first had covered up.  The one exception is the report of an identifier in use, which is about
what came before.

So what a session goes on with (`Session.Appends`) is read off the actions, one by one and then
by induction over a run, whatever the session is and whether the gate is asked or not.  A
registry turns an element into such a list, and a document is such a list, so elements and
documents inherit it.
-/
import UrlReservations.Proofs.Run
import UrlReservations.Compilation

namespace UrlReservations

open Xml (Element Document)

/-- Whether a diagnostic says that an identifier is in use. -/
def Diagnostic.isDuplicate (d : Diagnostic) : Bool :=
  match d.message with
  | .duplicateSymbol .. => true
  | _ => false

theorem Diagnostic.isError_of_isDuplicate {d : Diagnostic} (h : d.isDuplicate = true) :
    d.isError = true := by
  unfold isDuplicate at h
  split at h
  · rename_i hmessage
    rw [isError, hmessage]
    rfl
  · exact absurd h Bool.false_ne_true

namespace Action

/-- The attribute of another extension that an action records. -/
def extensionAttribute? : Action → Option ExtensionItem
  | .always (.extensionAttribute item) => some item
  | _ => none

/-- The element of another extension that an action records. -/
def extensionElement? : Action → Option ExtensionItem
  | .always (.extensionElement item) => some item
  | _ => none

/-- What an action reports on every session, identifiers in use not counted. -/
def reports (action : Action) : List Diagnostic := action.diagnostic?.toList.filter (!·.isDuplicate)

end Action

namespace Session

/--
A session goes on from another with some diagnostics, not counting identifiers in use, and with
some attributes and elements of other extensions.
-/
structure Appends (s t : Session) (diagnostics : List Diagnostic)
    (attributes elements : List ExtensionItem) : Prop where
  diagnostics : ∃ added, t.diagnostics = s.diagnostics ++ added ∧
    added.filter (!·.isDuplicate) = diagnostics
  attributes : t.extensionAttributes = s.extensionAttributes ++ attributes
  elements : t.extensionElements = s.extensionElements ++ elements

namespace Appends

variable {s t u : Session} {diagnostics diagnostics' : List Diagnostic}
  {attributes attributes' elements elements' : List ExtensionItem}

theorem refl (s : Session) : Appends s s [] [] [] :=
  ⟨⟨[], (List.append_nil _).symm, rfl⟩, (List.append_nil _).symm, (List.append_nil _).symm⟩

theorem trans (h : Appends s t diagnostics attributes elements)
    (h' : Appends t u diagnostics' attributes' elements') :
    Appends s u (diagnostics ++ diagnostics') (attributes ++ attributes')
      (elements ++ elements') := by
  obtain ⟨added, hadded, hreported⟩ := h.diagnostics
  obtain ⟨added', hadded', hreported'⟩ := h'.diagnostics
  refine ⟨⟨added ++ added', ?_, ?_⟩, ?_, ?_⟩
  · rw [hadded', hadded, List.append_assoc]
  · rw [List.filter_append, hreported, hreported']
  · rw [h'.attributes, h.attributes, List.append_assoc]
  · rw [h'.elements, h.elements, List.append_assoc]

end Appends

theorem report_appends (s : Session) (d : Diagnostic) :
    Appends s (s.report d) (Action.report d).reports [] [] :=
  ⟨⟨[d], rfl, rfl⟩, (List.append_nil _).symm, (List.append_nil _).symm⟩

/-- A reservation is added in silence, or refused because its identifier is in use. -/
theorem addReservation_appends (s : Session) (pos : Position) (row : UrlReservation) :
    Appends s (s.addReservation pos row) [] [] [] := by
  by_cases h : row.id ∈ s.reservations.keys
  · rw [addReservation_of_mem h]
    exact report_appends s _
  · rw [addReservation_of_notMem h]
    obtain ⟨hdiagnostics, hattributes, helements⟩ := Appends.refl s
    exact ⟨hdiagnostics, hattributes, helements⟩

theorem addAce_appends (s : Session) (pos : Position) (row : UrlAce) :
    Appends s (s.addAce pos row) [] [] [] := by
  by_cases h : row.id ∈ s.aces.keys
  · rw [addAce_of_mem h]
    exact report_appends s _
  · rw [addAce_of_notMem h]
    obtain ⟨hdiagnostics, hattributes, helements⟩ := Appends.refl s
    exact ⟨hdiagnostics, hattributes, helements⟩

/-- What an action adds to a session can be read off the action. -/
theorem act_appends (policy : Policy) (s : Session) (action : Action) :
    Appends s (s.act policy action) action.reports action.extensionAttribute?.toList
      action.extensionElement?.toList := by
  cases action with
  | always operation =>
    cases operation with
    | report d => exact report_appends s d
    | addReservation pos row => exact addReservation_appends s pos row
    | addAce pos row => exact addAce_appends s pos row
    | addReference reference =>
      obtain ⟨hdiagnostics, hattributes, helements⟩ := Appends.refl s
      exact ⟨hdiagnostics, hattributes, helements⟩
    | extensionAttribute item =>
      exact ⟨⟨[item.attributeWarning], rfl, rfl⟩, rfl, (List.append_nil _).symm⟩
    | extensionElement item =>
      exact ⟨⟨[item.elementWarning], rfl, rfl⟩, (List.append_nil _).symm, rfl⟩
  | emitReservation pos row =>
    by_cases hopen : s.gateOpen policy = true
    · rw [act, if_pos hopen]
      obtain ⟨hdiagnostics, hattributes, helements⟩ := addReservation_appends s pos row
      exact ⟨hdiagnostics, hattributes, helements⟩
    · rw [act, if_neg hopen]
      exact Appends.refl s
  | emitAce pos row =>
    by_cases hopen : s.gateOpen policy = true
    · rw [act, if_pos hopen]
      exact addAce_appends s pos row
    · rw [act, if_neg hopen]
      exact Appends.refl s

/-- What a run adds to a session is what its actions add, one after the other. -/
theorem perform_appends (policy : Policy) (s : Session) (actions : List Action) :
    Appends s (s.perform policy actions) (actions.flatMap Action.reports)
      (actions.filterMap Action.extensionAttribute?)
      (actions.filterMap Action.extensionElement?) := by
  induction actions generalizing s with
  | nil => exact Appends.refl s
  | cons action rest ih =>
    have happends := (act_appends policy s action).trans (ih (s.act policy action))
    rw [perform_cons, filterMap_cons_eq, filterMap_cons_eq, List.flatMap_cons]
    exact happends

/-- A remark touches nothing but the diagnostics, the flag, and the markup of other extensions. -/
theorem act_of_isRemark (policy : Policy) (s : Session) {action : Action}
    (h : action.isRemark = true) :
    s.act policy action = { s with
      diagnostics := s.diagnostics ++ action.diagnostic?.toList
      encounteredError := s.encounteredError || action.diagnostic?.toList.any (·.isError)
      extensionAttributes := s.extensionAttributes ++ action.extensionAttribute?.toList
      extensionElements := s.extensionElements ++ action.extensionElement?.toList } := by
  cases action with
  | always operation =>
    cases operation with
    | report d =>
      simp [act, apply, report, Action.diagnostic?, Action.extensionAttribute?,
        Action.extensionElement?]
    | extensionAttribute item =>
      simp [act, apply, report, Action.diagnostic?, Action.extensionAttribute?,
        Action.extensionElement?]
    | extensionElement item =>
      simp [act, apply, report, Action.diagnostic?, Action.extensionAttribute?,
        Action.extensionElement?]
    | _ => exact absurd h Bool.false_ne_true
  | _ => exact absurd h Bool.false_ne_true

/-- So do remarks in turn. -/
theorem perform_of_remarks (policy : Policy) (s : Session) {actions : List Action}
    (h : ∀ action ∈ actions, action.isRemark = true) :
    s.perform policy actions = { s with
      diagnostics := s.diagnostics ++ actions.filterMap Action.diagnostic?
      encounteredError :=
        s.encounteredError || (actions.filterMap Action.diagnostic?).any (·.isError)
      extensionAttributes := s.extensionAttributes ++ actions.filterMap Action.extensionAttribute?
      extensionElements := s.extensionElements ++ actions.filterMap Action.extensionElement? } := by
  induction actions generalizing s with
  | nil => simp
  | cons action rest ih =>
    rw [List.forall_mem_cons] at h
    rw [perform_cons, act_of_isRemark policy s h.1, ih _ h.2]
    simp only [filterMap_cons_eq, List.any_append, Bool.or_assoc, List.append_assoc]

theorem start_perform_diagnostics (platform : Platform) (policy : Policy) (actions : List Action) :
    ((start platform).perform policy actions).diagnostics.filter (!·.isDuplicate)
      = actions.flatMap Action.reports := by
  obtain ⟨added, hadded, hreported⟩ := (perform_appends policy (start platform) actions).diagnostics
  have hstart : (start platform).diagnostics = [] := rfl
  rw [hadded, hstart, List.nil_append, hreported]

end Session

/--
**No diagnostic hides another.**

What an element under a parent adds to the diagnostics, and to the attributes and elements of
other extensions, is the same on every session and under either policy, for every registry.  So
the diagnostics of a document are those its entries have on new sessions, one entry after the
other.  Reports of identifiers in use are left out of both.
-/
theorem reports_independent_of_session :
    (∀ (registry : Registry) (parent element : Element) (context : ParentContext),
      ∃ diagnostics attributes elements, ∀ (policy : Policy) (s : Session),
        s.Appends (s.perform policy (registry.dispatch parent element context))
          diagnostics attributes elements) ∧
    ∀ (doc : Document) (platform platform' : Platform),
      (compile doc platform).diagnostics.filter (!·.isDuplicate)
        = doc.entries.flatMap fun entry =>
            ((Session.start platform').perform .strict entry.actions).diagnostics.filter
              (!·.isDuplicate) := by
  refine ⟨?_, ?_⟩
  · intro registry parent element context
    exact ⟨_, _, _, fun policy s =>
      s.perform_appends policy (registry.dispatch parent element context)⟩
  · intro doc platform platform'
    rw [compile, Session.start_perform_diagnostics, Document.actions, List.flatMap_assoc]
    refine List.flatMap_congr fun entry _ => ?_
    rw [Session.start_perform_diagnostics]

end UrlReservations
