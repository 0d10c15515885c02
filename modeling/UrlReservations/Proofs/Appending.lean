/-
Readers only append, and not much.

Whatever is done to a session, what was in it stays where it was, an error stays an error, and the
platform stays the same (`Session.Keeps`).  That holds of every run of actions, since it holds of
each.  How much a run appends can be read off its actions: each makes room for the row it offers and
for nothing else, and a reservation that is emitted refers to two custom actions
(`Session.perform_addsAtMost`).  So the bounds on a reader are counts of the rows it offers.

A visitor is no list of actions.  It may look at the session, keep a state of its own, and decide
from both what to do next, as long as it goes through the operations of the host; a walk over
attributes with such a visitor comes down to operations all the same
(`Visitor.exists_foldl_eq_applyAll`).
-/
import UrlReservations.Proofs.Refusals
import UrlReservations.Proofs.Visiting

namespace UrlReservations

open Xml (Element)

namespace Session

variable {s t u : Session}

/-! ### What stays -/

/--
What a session holds is still there in another, an error is not taken
back, and the platform is the same.
-/
structure Keeps (s t : Session) : Prop extends Extends s t where
  encounteredError : s.encounteredError = true → t.encounteredError = true
  platform : t.platform = s.platform

/-- Every run of actions keeps what was there. -/
theorem perform_keeps (policy : Policy) (s : Session) (actions : List Action) :
    Keeps s (s.perform policy actions) where
  toExtends := perform_extends policy s actions
  encounteredError hs := stable_encounteredError.perform hs policy actions
  platform := (stable_platform s.platform).perform rfl policy actions

theorem applyAll_keeps (s : Session) (operations : List Operation) :
    Keeps s (s.applyAll operations) := by
  rw [applyAll_eq_perform .strict]
  exact perform_keeps .strict s _

/-! ### How much is added -/

/--
A session goes on from another with at most so many rows in each table, and so many references.
-/
structure AddsAtMost (s t : Session) (reservations aces references : Nat) : Prop where
  reservations : t.reservations.rows.length ≤ s.reservations.rows.length + reservations
  aces : t.aces.rows.length ≤ s.aces.rows.length + aces
  references : t.references.rows.length ≤ s.references.rows.length + references

namespace AddsAtMost

variable {reservations aces references reservations' aces' references' : Nat}

theorem refl (s : Session) : AddsAtMost s s 0 0 0 := ⟨Nat.le_refl _, Nat.le_refl _, Nat.le_refl _⟩

theorem trans (h : AddsAtMost s t reservations aces references)
    (h' : AddsAtMost t u reservations' aces' references') :
    AddsAtMost s u (reservations + reservations') (aces + aces') (references + references') := by
  obtain ⟨hreservations, haces, hreferences⟩ := h
  obtain ⟨hreservations', haces', hreferences'⟩ := h'
  exact ⟨by omega, by omega, by omega⟩

theorem mono (h : AddsAtMost s t reservations aces references)
    (hreservations : reservations ≤ reservations') (haces : aces ≤ aces')
    (hreferences : references ≤ references') : AddsAtMost s t reservations' aces' references' := by
  obtain ⟨hreservations', haces', hreferences'⟩ := h
  exact ⟨by omega, by omega, by omega⟩

end AddsAtMost

end Session

theorem Table.length_insertNew_le {ρ κ : Type} {key : ρ → κ} [DecidableEq κ] (table : Table key)
    (row : ρ) : (table.insertNew row).rows.length ≤ table.rows.length + 1 := by
  by_cases h : key row ∈ table.keys
  · rw [insertNew_of_mem h]
    exact Nat.le_succ _
  · rw [insertNew_of_notMem h, List.length_append, List.length_singleton]

namespace Session

theorem addAce_addsAtMost (s : Session) (pos : Position) (row : UrlAce) :
    AddsAtMost s (s.addAce pos row) 0 1 0 := by
  obtain ⟨hreferences, hreservations⟩ := s.addAce_references pos row
  refine ⟨?_, ?_, ?_⟩
  · rw [hreservations, Nat.add_zero]
  · rw [addAce_aces]
    exact s.aces.length_insertNew_le row
  · rw [hreferences, Nat.add_zero]

theorem addReservation_addsAtMost (s : Session) (pos : Position) (row : UrlReservation) :
    AddsAtMost s (s.addReservation pos row) 1 0 0 := by
  refine ⟨?_, ?_, ?_⟩
  · rw [addReservation_reservations]
    exact s.reservations.length_insertNew_le row
  · rw [addReservation_aces, Nat.add_zero]
  · rw [addReservation_references, Nat.add_zero]

theorem addReference_addsAtMost (s : Session) (reference : Reference) :
    AddsAtMost s (s.addReference reference) 0 0 1 :=
  ⟨Nat.le_refl _, Nat.le_refl _, s.references.length_insertNew_le reference⟩

/-- An action of a reader adds at most the row it offers, and two references for a reservation. -/
theorem act_addsAtMost (policy : Policy) (s : Session) {action : Action}
    (haction : action.isOfReader = true) :
    AddsAtMost s (s.act policy action) action.reservation?.toList.length action.ace?.toList.length
      (2 * action.reservation?.toList.length) := by
  cases action with
  | always operation =>
    cases operation with
    | report d => exact ⟨Nat.le_refl _, Nat.le_refl _, Nat.le_refl _⟩
    | extensionAttribute item => exact ⟨Nat.le_refl _, Nat.le_refl _, Nat.le_refl _⟩
    | extensionElement item => exact ⟨Nat.le_refl _, Nat.le_refl _, Nat.le_refl _⟩
    | _ => exact absurd haction Bool.false_ne_true
  | emitReservation pos row =>
    by_cases hopen : s.gateOpen policy = true
    · rw [act, if_pos hopen]
      exact ((s.addReservation_addsAtMost pos row).trans (addReference_addsAtMost _ _)).trans
        (addReference_addsAtMost _ _)
    · rw [act, if_neg hopen]
      exact (AddsAtMost.refl s).mono (Nat.zero_le _) (Nat.zero_le _) (Nat.zero_le _)
  | emitAce pos row =>
    by_cases hopen : s.gateOpen policy = true
    · rw [act, if_pos hopen]
      exact s.addAce_addsAtMost pos row
    · rw [act, if_neg hopen]
      exact (AddsAtMost.refl s).mono (Nat.zero_le _) (Nat.zero_le _) (Nat.zero_le _)

/--
**A run of readers adds at most the rows it offers**, and two references for each reservation.
-/
theorem perform_addsAtMost (policy : Policy) (s : Session) {actions : List Action}
    (hactions : ∀ action ∈ actions, action.isOfReader = true) :
    AddsAtMost s (s.perform policy actions) (actions.filterMap Action.reservation?).length
      (actions.filterMap Action.ace?).length
      (2 * (actions.filterMap Action.reservation?).length) := by
  induction actions generalizing s with
  | nil => exact AddsAtMost.refl s
  | cons action rest ih =>
    rw [List.forall_mem_cons] at hactions
    have hadds := (s.act_addsAtMost policy hactions.1).trans (ih (s.act policy action) hactions.2)
    rw [filterMap_cons_eq, filterMap_cons_eq, List.length_append, List.length_append, Nat.mul_add]
    exact hadds

end Session

/-! ### How much readers add -/

theorem length_toList_le {α : Type} (a? : Option α) : a?.toList.length ≤ 1 := by
  cases a? <;> simp

theorem UrlAce.addsAtMost_actions (policy : Policy) (s : Session) (ace : Element)
    (reservationId : Identifier) (ambient? : Option String) :
    s.AddsAtMost (s.perform policy (actions ace reservationId ambient?)) 0 1 0 := by
  obtain ⟨hreservations, haces⟩ := rows_actions ace reservationId ambient?
  have hadds := s.perform_addsAtMost policy fun action haction =>
    (ofReader_of_mem_actions ace reservationId ambient? action haction).isOfReader
  rw [hreservations, haces] at hadds
  exact hadds.mono (Nat.le_refl _) (length_toList_le _) (Nat.le_refl _)

namespace UrlReservation

theorem length_aces_actions_le (element : Element) (owner : Owner) :
    ((actions element owner).filterMap Action.ace?).length ≤ element.aces.length := by
  rw [aces_actions]
  split
  · rw [← List.filterMap_eq_flatMap_toList]
    exact List.length_filterMap_le _ _
  · exact Nat.zero_le _

theorem addsAtMost_actions (policy : Policy) (s : Session) (element : Element) (owner : Owner) :
    s.AddsAtMost (s.perform policy (actions element owner)) 1 element.aces.length 2 := by
  have hadds := s.perform_addsAtMost policy fun action haction =>
    (ofReader_of_mem_actions element owner action haction).isOfReader
  rw [reservations_actions] at hadds
  have hrow := length_toList_le (read element owner).row?
  exact hadds.mono hrow (length_aces_actions_le element owner) (Nat.mul_le_mul_left 2 hrow)

end UrlReservation

namespace Registry

/-- An element that is dispatched adds one row of its own at most. -/
theorem dispatchInto_addsAtMost {registry : Registry} (hreaders : registry.HasReaders)
    (policy : Policy) (s : Session) (d : Dispatch) :
    s.AddsAtMost (registry.dispatchInto policy s d) 1 (max 1 d.element.aces.length) 2 := by
  unfold dispatchInto dispatch
  cases hroute : registry.route d.parent d.element d.context with
  | handled handler owner =>
    rcases hreaders d.element.name handler (handler?_of_route hroute)
      with rfl | ⟨reservationId, ambient?, rfl⟩
    · exact (UrlReservation.addsAtMost_actions policy s d.element owner).mono (Nat.le_refl 1)
        (Nat.le_max_right ..) (Nat.le_refl 2)
    · exact (UrlAce.addsAtMost_actions policy s d.element _ _).mono (Nat.zero_le 1)
        (Nat.le_max_left ..) (Nat.zero_le 2)
  | _ => exact ⟨Nat.le_add_right .., Nat.le_add_right .., Nat.le_add_right ..⟩

end Registry

/-! ### Visitors that use a session -/

/-- A session as a host, with a visitor that may use it and keep a state of its own. -/
def Visitor.onSession {α σ : Type} (visit : α → AttributeValue → σ × Session → σ × Session) :
    Visitor α (σ × Session) where
  forward element a t := (t.1, t.2.apply (.extensionAttribute (.ofAttribute element a)))
  report d t := (t.1, t.2.report d)
  visit := visit

/-- A visitor does to a session what its operations do, however it chooses them. -/
def UsesOperations {α σ : Type} (visit : α → AttributeValue → σ × Session → σ × Session) : Prop :=
  ∀ kind v own s, ∃ operations, (visit kind v (own, s)).2 = s.applyAll operations

namespace Visitor

variable {α σ : Type} [AttributeSet α] {visit : α → AttributeValue → σ × Session → σ × Session}

theorem exists_handle_eq_applyAll (hvisit : UsesOperations visit) (element : Element)
    (t : σ × Session) (finding : Finding α) :
    ∃ operations, ((onSession visit).handle element t finding).2 = t.2.applyAll operations := by
  cases finding with
  | foreign a => exact ⟨[.extensionAttribute (.ofAttribute element a)], rfl⟩
  | unknown a => exact ⟨[.report _], rfl⟩
  | repeated kind a => exact ⟨[.report _], rfl⟩
  | first kind a => exact hvisit kind _ t.1 t.2

/-- So does a walk with it. -/
theorem exists_foldl_eq_applyAll (hvisit : UsesOperations visit) (element : Element)
    (found : List (Finding α)) (t : σ × Session) :
    ∃ operations, (found.foldl ((onSession visit).handle element) t).2
      = t.2.applyAll operations := by
  induction found generalizing t with
  | nil => exact ⟨[], rfl⟩
  | cons finding rest ih =>
    obtain ⟨first, hfirst⟩ := exists_handle_eq_applyAll hvisit element t finding
    obtain ⟨later, hlater⟩ := ih ((onSession visit).handle element t finding)
    refine ⟨first ++ later, ?_⟩
    rw [List.foldl_cons, hlater, hfirst, Session.applyAll, Session.applyAll, Session.applyAll,
      List.foldl_append]

end Visitor

/--
**The extension only appends.**

An element that is dispatched, a reservation or an access control entry that is read, and a walk
over attributes with a visitor that uses the operations of the host, all keep what a session
holds, its error and its platform, on every session and under either policy.  An element that is
dispatched and a reservation add one reservation and two references at most; a reservation adds no
more entries than there are directly inside it, and an access control entry adds one entry at most
and nothing else.
-/
theorem extension_only_appends :
    (∀ registry : Registry, registry.HasReaders → ∀ (policy : Policy) (s : Session) (d : Dispatch),
      s.Keeps (registry.dispatchInto policy s d) ∧
        s.AddsAtMost (registry.dispatchInto policy s d) 1 (max 1 d.element.aces.length) 2) ∧
    (∀ (policy : Policy) (s : Session) (element : Element) (owner : Owner),
      s.Keeps (s.readReservation policy element owner).1 ∧
        s.AddsAtMost (s.readReservation policy element owner).1 1 element.aces.length 2) ∧
    (∀ (policy : Policy) (s : Session) (element : Element) (reservationId : Identifier)
      (ambient? : Option String),
      s.Keeps (s.readAce policy element reservationId ambient?).1 ∧
        s.AddsAtMost (s.readAce policy element reservationId ambient?).1 0 1 0) ∧
    ∀ (α σ : Type) [AttributeSet α] [DecidableEq α]
      (visit : α → AttributeValue → σ × Session → σ × Session),
      UsesOperations visit → ∀ (element : Element) (own : σ) (s : Session),
        s.Keeps (element.visitBy (.onSession visit) (own, s)).2 := by
  refine ⟨?_, ?_, ?_, ?_⟩
  · intro registry hreaders policy s d
    exact ⟨Session.perform_keeps policy s _, Registry.dispatchInto_addsAtMost hreaders policy s d⟩
  · intro policy s element owner
    rw [Session.readReservation, Session.settle_fst]
    exact ⟨Session.perform_keeps policy s _,
      UrlReservation.addsAtMost_actions policy s element owner⟩
  · intro policy s element reservationId ambient?
    rw [Session.readAce, Session.settle_fst]
    exact ⟨Session.perform_keeps policy s _,
      UrlAce.addsAtMost_actions policy s element reservationId ambient?⟩
  · intro α σ _ _ visit hvisit element own s
    rw [Element.visitBy, Visitor.walk_eq_foldl]
    obtain ⟨operations, hoperations⟩ := Visitor.exists_foldl_eq_applyAll hvisit element _ (own, s)
    rw [hoperations]
    exact s.applyAll_keeps operations

/--
A visitor that counts its visits and refers to the values it is given until there is an error.
-/
def referringVisitor : ReservationAttribute → AttributeValue → Nat × Session → Nat × Session :=
  fun _ v t => (t.1 + 1, if t.2.encounteredError then t.2 else t.2.addReference ⟨v.name, v.value⟩)

/--
After an error there is still room for a row if the gate is never
closed, and for a visit that makes no reference.
-/
theorem extension_only_appends_late :
    let s := (Session.start .x86).report ⟨⟨1, 1⟩, .noSecuritySpecified⟩
    Registry.http.HasReaders ∧ UsesOperations referringVisitor ∧
      s.Keeps (Registry.http.dispatchInto .lenient s describedReservation) ∧
      (Registry.http.dispatchInto .lenient s describedReservation).references.rows.length = 2 ∧
      s.Keeps (crowdedElement.visitBy (.onSession referringVisitor) (0, s)).2 ∧
      (crowdedElement.visitBy (.onSession referringVisitor) (0, s)).1 = 2 ∧
      (crowdedElement.visitBy (.onSession referringVisitor) (0, .start .x86)).2.references.rows
        = [⟨"Id", ""⟩] := by
  intro s
  have hvisitor : UsesOperations referringVisitor := by
    intro kind v own s
    by_cases herror : s.encounteredError = true
    · exact ⟨[], by simp [referringVisitor, herror, Session.applyAll]⟩
    · exact ⟨[.addReference ⟨v.name, v.value⟩],
        by simp [referringVisitor, herror, Session.applyAll, Session.apply]⟩
  obtain ⟨hdispatch, -, -, hwalk⟩ := extension_only_appends
  refine ⟨Registry.http_hasReaders, hvisitor, ?_, by decide, ?_, by decide, by decide⟩
  · exact (hdispatch Registry.http Registry.http_hasReaders .lenient s describedReservation).1
  · exact hwalk ReservationAttribute Nat referringVisitor hvisitor crowdedElement 0 s

end UrlReservations
