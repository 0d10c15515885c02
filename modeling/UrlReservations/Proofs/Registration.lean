/-
Registries as they come about.

A registry is built by one registration after another, of parents and of elements.  A name may be
registered again, or in one of the two roles only, and it may never be registered at all.  What the
registry keeps of such a history is the last registration of each name in each role
(`parent?_ofHistory`, `handler?_ofHistory`).

A dispatch never looks into a handler, so handlers may be anything here, as long as `handle` says
what one does to a session.  `Dispatched` says what a dispatch comes to from the history alone,
one case for each of the ways it can end.  The handlers of the compiler, which read an element
into actions that are then carried out, are one instance (`dispatchInto_eq_dispatchBy`).
-/
import Mathlib.Data.List.Induction
import UrlReservations.Proofs.Operations
import UrlReservations.Proofs.Refusals

namespace UrlReservations

open Xml (Element)

/-- One registration of a name. -/
inductive Registration (η : Type) where
  /-- Elements of the name may have extension children from now on. -/
  | parent (name : String) (resolve : ParentHandler)
  /-- Extension elements of the name are handled from now on. -/
  | element (name : String) (handler : η)

variable {η : Type}

namespace Registration

/-- What a registration says about parents of a name. -/
def parent? (name : String) : Registration η → Option ParentHandler
  | .parent other resolve => if other = name then some resolve else none
  | .element .. => none

/-- What a registration says about extension elements of a name. -/
def handler? (name : String) : Registration η → Option η
  | .parent .. => none
  | .element other handler => if other = name then some handler else none

/--
The last registration for parents of a name; there is none if the name
was never registered for parents.
-/
def lastParent? (history : List (Registration η)) (name : String) : Option ParentHandler :=
  (history.filterMap (parent? name)).getLast?

/-- The last registration for extension elements of a name. -/
def lastHandler? (history : List (Registration η)) (name : String) : Option η :=
  (history.filterMap (handler? name)).getLast?

end Registration

open Registration (lastParent? lastHandler?)

namespace RegistryOf

/-- Make a registration. -/
def add (registry : RegistryOf η) : Registration η → RegistryOf η
  | .parent name resolve => registry.registerParent name resolve
  | .element name handler => registry.register name handler

/-- The registry after a history of registrations, made in turn in one that knows no name. -/
def ofHistory (history : List (Registration η)) : RegistryOf η := history.foldl add ⟨[], []⟩

theorem ofHistory_concat (history : List (Registration η)) (registration : Registration η) :
    ofHistory (history ++ [registration]) = (ofHistory history).add registration := by
  rw [ofHistory, List.foldl_append]
  rfl

theorem parent?_registerParent (registry : RegistryOf η) (other name : String)
    (resolve : ParentHandler) :
    (registry.registerParent other resolve).parent? name
      = if other = name then some resolve else registry.parent? name := by
  rw [parent?, registerParent, List.lookup_cons]
  by_cases h : other = name
  · rw [if_pos h, beq_iff_eq.mpr h.symm]
  · rw [if_neg h, beq_false_of_ne (Ne.symm h)]
    rfl

theorem handler?_register (registry : RegistryOf η) (other name : String) (handler : η) :
    (registry.register other handler).handler? name
      = if other = name then some handler else registry.handler? name := by
  rw [handler?, register, List.lookup_cons]
  by_cases h : other = name
  · rw [if_pos h, beq_iff_eq.mpr h.symm]
  · rw [if_neg h, beq_false_of_ne (Ne.symm h)]
    rfl

/-- **A registry knows a parent by its last registration**, whatever else was registered. -/
theorem parent?_ofHistory (history : List (Registration η)) (name : String) :
    (ofHistory history).parent? name = lastParent? history name := by
  induction history using List.reverseRecOn with
  | nil => rfl
  | append_singleton history registration ih =>
    rw [ofHistory_concat, lastParent?, List.filterMap_append]
    cases registration with
    | parent other resolve =>
      rw [add, parent?_registerParent, ih]
      by_cases h : other = name
      · simp [Registration.parent?, h]
      · simp [Registration.parent?, h, lastParent?]
    | element other handler =>
      -- parents and elements are registered apart, even under one name
      show (ofHistory history).parent? name = _
      rw [ih]
      simp [Registration.parent?, lastParent?]

/-- **A registry knows a handler by its last registration.** -/
theorem handler?_ofHistory (history : List (Registration η)) (name : String) :
    (ofHistory history).handler? name = lastHandler? history name := by
  induction history using List.reverseRecOn with
  | nil => rfl
  | append_singleton history registration ih =>
    rw [ofHistory_concat, lastHandler?, List.filterMap_append]
    cases registration with
    | parent other resolve =>
      show (ofHistory history).handler? name = _
      rw [ih]
      simp [Registration.handler?, lastHandler?]
    | element other handler =>
      rw [add, handler?_register, ih]
      by_cases h : other = name
      · simp [Registration.handler?, h]
      · simp [Registration.handler?, h, lastHandler?]

example :
    Registry.http = ofHistory [.parent "Component" Owner.ofComponent,
      .parent "ServiceInstall" Owner.ofServiceInstall,
      .element "UrlReservation" UrlReservation.actions] := rfl

/-! ### Dispatching -/

variable (handle : η → Element → Owner → Session → Session)

/-- Dispatch an element into a session, where `handle` says what a handler does to it. -/
def dispatchBy (registry : RegistryOf η) (s : Session) (d : Dispatch) : Session :=
  match registry.route d.parent d.element d.context with
  | .foreign => s.apply (.extensionElement (.ofElement d.parent d.element))
  | .unexpected => s.report ⟨d.element.pos, .unexpectedElement d.parent.name d.element.name⟩
  | .unresolved message => s.report ⟨d.parent.pos, message⟩
  | .handled handler owner => handle handler d.element owner s

/-- The handlers of the compiler have their actions carried out. -/
theorem dispatchInto_eq_dispatchBy (registry : Registry) (policy : Policy) (s : Session)
    (d : Dispatch) :
    registry.dispatchInto policy s d
      = registry.dispatchBy (fun handler element owner s =>
          s.perform policy (handler element owner)) s d := by
  rw [Registry.dispatchInto, Registry.dispatch, dispatchBy]
  cases registry.route d.parent d.element d.context <;> rfl

/-- What a dispatch leaves of a session, by the last registrations of the two names. -/
inductive Dispatched (history : List (Registration η)) (s : Session) (d : Dispatch) : Session → Prop
  /-- An element of another extension is recorded, with its warning. -/
  | foreign (helement : d.element.isHttp = false) :
    Dispatched history s d { s with
      diagnostics := s.diagnostics ++ [(ExtensionItem.ofElement d.parent d.element).elementWarning]
      extensionElements := s.extensionElements ++ [.ofElement d.parent d.element] }
  /-- An element that may not stand there is reported. -/
  | unexpected (helement : d.element.isHttp = true)
      (hunknown : d.parent.isCore = false ∨ lastParent? history d.parent.name = none ∨
        lastHandler? history d.element.name = none) :
    Dispatched history s d { s with
      diagnostics :=
        s.diagnostics ++ [⟨d.element.pos, .unexpectedElement d.parent.name d.element.name⟩]
      encounteredError := true }
  /-- A parent that lacks something is reported. -/
  | unresolved {resolve : ParentHandler} {handler : η} {message : Message}
      (helement : d.element.isHttp = true) (hcore : d.parent.isCore = true)
      (hparent : lastParent? history d.parent.name = some resolve)
      (hhandler : lastHandler? history d.element.name = some handler)
      (hmessage : resolve d.context = .error message) :
    Dispatched history s d { s with
      diagnostics := s.diagnostics ++ [⟨d.parent.pos, message⟩]
      encounteredError := s.encounteredError || message.isError }
  /-- Any other element is handled. -/
  | handled {resolve : ParentHandler} {handler : η} {owner : Owner}
      (helement : d.element.isHttp = true) (hcore : d.parent.isCore = true)
      (hparent : lastParent? history d.parent.name = some resolve)
      (hhandler : lastHandler? history d.element.name = some handler)
      (howner : resolve d.context = .ok owner) :
    Dispatched history s d (handle handler d.element owner s)

variable {handle} {history : List (Registration η)} {s t : Session} {d : Dispatch}

/-- A dispatch can end in one of the ways at least. -/
theorem exists_dispatched (handle : η → Element → Owner → Session → Session)
    (history : List (Registration η)) (s : Session) (d : Dispatch) :
    ∃ t, Dispatched handle history s d t := by
  cases helement : d.element.isHttp with
  | false => exact ⟨_, .foreign helement⟩
  | true =>
    cases hcore : d.parent.isCore with
    | false => exact ⟨_, .unexpected helement (.inl hcore)⟩
    | true =>
      cases hparent : lastParent? history d.parent.name with
      | none => exact ⟨_, .unexpected helement (.inr (.inl hparent))⟩
      | some resolve =>
        cases hhandler : lastHandler? history d.element.name with
        | none => exact ⟨_, .unexpected helement (.inr (.inr hhandler))⟩
        | some handler =>
          cases howner : resolve d.context with
          | error message => exact ⟨_, .unresolved helement hcore hparent hhandler howner⟩
          | ok owner => exact ⟨_, .handled helement hcore hparent hhandler howner⟩

/-- And it ends as the way says. -/
theorem dispatchBy_eq_of_dispatched (h : Dispatched handle history s d t) :
    (ofHistory history).dispatchBy handle s d = t := by
  rw [dispatchBy, route, parent?_ofHistory, handler?_ofHistory]
  cases h with
  | foreign helement => simp [helement, Session.apply, Session.report]
  | unexpected helement hunknown =>
    rw [← Session.report_of_isError s rfl]
    rcases hunknown with hcore | hparent | hhandler
    · simp [helement, hcore]
    · cases hcore : d.parent.isCore <;> simp [helement, hparent]
    · cases hcore : d.parent.isCore <;> cases hparent : lastParent? history d.parent.name <;>
        simp [helement, hhandler]
  | unresolved helement hcore hparent hhandler hmessage =>
    simp [helement, hcore, hparent, hhandler, hmessage, Session.report]
  | handled helement hcore hparent hhandler howner =>
    simp [helement, hcore, hparent, hhandler, howner]

/-- Histories that end with the same registrations build registries that route alike. -/
theorem route_ofHistory_congr {history' : List (Registration η)}
    (hparents : ∀ name, lastParent? history name = lastParent? history' name)
    (hhandlers : ∀ name, lastHandler? history name = lastHandler? history' name)
    (parent element : Element) (context : ParentContext) :
    (ofHistory history).route parent element context
      = (ofHistory history').route parent element context := by
  rw [route, route, parent?_ofHistory, parent?_ofHistory, handler?_ofHistory, handler?_ofHistory,
    hparents, hhandlers]

end RegistryOf

/--
**What a dispatch does is decided by the last registrations.**

Whatever a registry was built by and whatever its handlers do, dispatching an element into a
session ends in the one way that the last registrations of the two names say: an element of
another extension is recorded with its warning; an element under a parent that is not of the core
schema or was never registered, or that was never registered itself, is reported; a parent whose
last handler fails is reported; and any other element is handed to its last handler, with the
owner its parent's last handler finds.  So histories that end with the same registrations are not
told apart.  The compiler dispatches in this way, with handlers that have actions carried out.
-/
theorem last_registrations_decide :
    (∀ (η : Type) (handle : η → Element → Owner → Session → Session)
      (history : List (Registration η)),
      (∀ s d t, (RegistryOf.ofHistory history).dispatchBy handle s d = t ↔
        RegistryOf.Dispatched handle history s d t) ∧
      ∀ history' : List (Registration η),
        (∀ name, lastParent? history name = lastParent? history' name) →
        (∀ name, lastHandler? history name = lastHandler? history' name) →
        ∀ s d, (RegistryOf.ofHistory history).dispatchBy handle s d
          = (RegistryOf.ofHistory history').dispatchBy handle s d) ∧
    ∀ (registry : Registry) (policy : Policy) (s : Session) (d : Dispatch),
      registry.dispatchInto policy s d
        = registry.dispatchBy (fun handler element owner s =>
            s.perform policy (handler element owner)) s d := by
  refine ⟨?_, RegistryOf.dispatchInto_eq_dispatchBy⟩
  intro η handle history
  refine ⟨?_, ?_⟩
  · intro s d t
    refine ⟨?_, RegistryOf.dispatchBy_eq_of_dispatched⟩
    rintro rfl
    obtain ⟨t, h⟩ := RegistryOf.exists_dispatched handle history s d
    rwa [RegistryOf.dispatchBy_eq_of_dispatched h]
  · intro history' hparents hhandlers s d
    rw [RegistryOf.dispatchBy, RegistryOf.route_ofHistory_congr hparents hhandlers]
    rfl

/-- What was registered first is forgotten, and so is the order of names and roles. -/
theorem last_registrations_decide_replaced :
    let handle := fun (handler : ElementHandler) element owner (s : Session) =>
      s.perform .strict (handler element owner)
    let history : List (Registration ElementHandler) :=
      [.element "UrlReservation" fun _ _ => [], .parent "Component" fun _ => .ok ⟨"X", none⟩,
        .parent "Component" Owner.ofComponent, .element "UrlReservation" UrlReservation.actions]
    let history' : List (Registration ElementHandler) :=
      [.element "UrlReservation" UrlReservation.actions, .parent "Component" Owner.ofComponent]
    (∀ s d, (RegistryOf.ofHistory history).dispatchBy handle s d
      = (RegistryOf.ofHistory history').dispatchBy handle s d) ∧
    ((RegistryOf.ofHistory history).dispatchBy handle (.start .x86)
        describedReservation).reservations.rows
      = [⟨⟨"R"⟩, .replace, some "D:", "http://+:80/", "C"⟩] := by
  intro handle history history'
  refine ⟨(last_registrations_decide.1 ElementHandler handle history).2 history' ?_ ?_, by decide⟩
  · intro name
    by_cases hname : "Component" = name
    · subst hname
      rfl
    · simp [lastParent?, Registration.parent?, history, history', hname]
  · intro name
    by_cases hname : "UrlReservation" = name
    · subst hname
      rfl
    · simp [lastHandler?, Registration.handler?, history, history', hname]

end UrlReservations
