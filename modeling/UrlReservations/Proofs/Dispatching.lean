/-
Elements dispatched one after another.

A document is one way to come by dispatches; a caller may make any others.  A run takes them
through one session in turn, which is carrying out all they ask for as one list of actions
(`run_eq_perform`), so what is known of runs of actions is known of runs of dispatches.

A registry may hold any handlers.  Those that read the elements of the extension, under
whatever names, ask only for remarks and for rows the gate may hold back
(`isOfReader_of_mem_actions`); what parents make of their context does not matter to that.
-/
import UrlReservations.Proofs.Growth

namespace UrlReservations

open Xml (Element)

/-- An element to be dispatched, with the parent it stands under and what is known there. -/
structure Dispatch where
  parent : Element
  element : Element
  context : ParentContext

/--
Whether a handler reads a reservation, or an access control entry of
some reservation under some principal.
-/
def ElementHandler.IsReader (handler : ElementHandler) : Prop :=
  handler = UrlReservation.actions ∨
    ∃ (reservationId : Element → Owner → Identifier) (ambient? : Element → Owner → Option String),
      handler = fun element owner =>
        UrlAce.actions element (reservationId element owner) (ambient? element owner)

theorem ElementHandler.IsReader.ofReader {handler : ElementHandler} (h : handler.IsReader)
    (element : Element) (owner : Owner) : ∀ action ∈ handler element owner, action.OfReader := by
  rcases h with rfl | ⟨reservationId, ambient?, rfl⟩
  · exact UrlReservation.ofReader_of_mem_actions element owner
  · exact UrlAce.ofReader_of_mem_actions element _ _

namespace Registry

variable (registry : Registry) (policy : Policy)

/-- Dispatch an element into a session. -/
def dispatchInto (s : Session) (d : Dispatch) : Session :=
  s.perform policy (registry.dispatch d.parent d.element d.context)

/-- Dispatch elements into a session, one after another. -/
def run (s : Session) (dispatches : List Dispatch) : Session :=
  dispatches.foldl (registry.dispatchInto policy) s

/-- Everything that elements ask for when they are dispatched in turn. -/
def actions (dispatches : List Dispatch) : List Action :=
  dispatches.flatMap fun d => registry.dispatch d.parent d.element d.context

/-- A run of dispatches is the run of all they ask for. -/
theorem run_eq_perform (s : Session) (dispatches : List Dispatch) :
    registry.run policy s dispatches = s.perform policy (registry.actions dispatches) := by
  rw [run, actions, Session.perform, List.foldl_flatMap]
  rfl

/-- Every handler of the registry is one of the readers of the extension. -/
def HasReaders : Prop := ∀ name handler, registry.handler? name = some handler → handler.IsReader

variable {registry}

/-- Only a registered handler is ever routed to. -/
theorem handler?_of_route {parent element : Element} {context : ParentContext}
    {handler : ElementHandler} {owner : Owner}
    (h : registry.route parent element context = .handled handler owner) :
    registry.handler? element.name = some handler := by
  unfold RegistryOf.route at h
  by_cases hhttp : element.isHttp = true
  · by_cases hcore : parent.isCore = true
    · cases hresolve : registry.parent? parent.name with
      | none => simp [hhttp, hcore, hresolve] at h
      | some resolve =>
        cases hhandler : registry.handler? element.name with
        | none => simp [hhttp, hcore, hresolve, hhandler] at h
        | some found =>
          cases howner : resolve context with
          | error message => simp [hhttp, hcore, hresolve, hhandler, howner] at h
          | ok found =>
            simp [hhttp, hcore, hresolve, hhandler, howner] at h
            rw [h.1]
    · simp [hhttp, hcore] at h
  · simp [hhttp] at h

theorem isOfReader_of_mem_dispatch (h : registry.HasReaders) (parent element : Element)
    (context : ParentContext) :
    ∀ action ∈ registry.dispatch parent element context, action.isOfReader = true := by
  intro action haction
  unfold dispatch at haction
  cases hroute : registry.route parent element context with
  | handled handler owner =>
    rw [hroute] at haction
    exact ((h element.name handler (handler?_of_route hroute)).ofReader element owner action
      haction).isOfReader
  | _ =>
    -- a single remark: the element is forwarded, or something is reported
    rw [hroute] at haction
    rw [List.mem_singleton.mp haction]
    rfl

theorem isOfReader_of_mem_actions (h : registry.HasReaders) (dispatches : List Dispatch) :
    ∀ action ∈ registry.actions dispatches, action.isOfReader = true := by
  intro action haction
  obtain ⟨d, -, haction⟩ := List.mem_flatMap.mp haction
  exact isOfReader_of_mem_dispatch h d.parent d.element d.context action haction

theorem http_hasReaders : http.HasReaders := by
  intro name handler hhandler
  rw [handler?_http] at hhandler
  split at hhandler
  · exact .inl (Option.some.inj hhandler).symm
  · simp at hhandler

end Registry

end UrlReservations
