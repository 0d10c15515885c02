/-
An error freezes the records.

The gate is asked each time a row is to be emitted, and never at any other time, so it has to be
enough: neither what a reader reports on its way nor what it forwards may touch a table, and no row
may get past a gate that was closed when the reading began.  The flag is never taken back, so it is
closed at every such moment, between the access control entries of one reservation as well
(`perform_keepsRecords`).

A document is compiled by readers only.  So what a compilation has stored is what it had stored when
the last action without an error was done (`exists_keepsRecords`).  The first error itself stores
nothing either.  That is less clear of the references, because a reservation that is refused makes
its references all the same; but it is refused for one that had made them before.
-/
import UrlReservations.Proofs.Answers

namespace UrlReservations

open Xml (Element Document)

namespace Session

/--
Both tables and the references of a session are what they were before, and with them the keys that
are in use.
-/
structure KeepsRecords (s t : Session) : Prop where
  reservations : t.reservations = s.reservations
  aces : t.aces = s.aces
  references : t.references = s.references

variable {s t : Session}

theorem keepsRecords_of_records (h : t.records = s.records) : KeepsRecords s t where
  reservations := Table.ext (congrArg RecordSet.urlReservations h)
  aces := Table.ext (congrArg RecordSet.urlAces h)
  references := Table.ext (congrArg RecordSet.references h)

/-- Nothing that readers ask for is stored once there is an error. -/
theorem perform_keepsRecords {actions : List Action} (hs : s.encounteredError = true)
    (hactions : ∀ action ∈ actions, action.OfReader) :
    KeepsRecords s (s.perform .strict actions) := by
  apply keepsRecords_of_records
  exact perform_records_of_error hs fun action haction => (hactions action haction).isOfReader

/-- Nor is anything answered. -/
theorem settle_snd_of_error {ρ : Type} (hs : s.encounteredError = true) (reading : Reading ρ)
    (emit : ρ → Action) : (s.settle .strict reading emit).2 = none := by
  have herror := stable_encounteredError.perform hs .strict reading.actions
  have hclosed : (s.perform .strict reading.actions).gateOpen .strict = false := by
    rw [gateOpen, herror, Bool.not_true]
  unfold settle
  cases reading.row? with
  | none => rfl
  | some row => simp only [hclosed, Bool.false_eq_true, if_false]

theorem readReservation_of_error (hs : s.encounteredError = true) (element : Element)
    (owner : Owner) :
    KeepsRecords s (s.readReservation .strict element owner).1 ∧
      (s.readReservation .strict element owner).2 = none := by
  refine ⟨?_, settle_snd_of_error hs _ _⟩
  rw [readReservation, settle_fst]
  exact perform_keepsRecords hs (UrlReservation.ofReader_of_mem_actions element owner)

theorem readAce_of_error (hs : s.encounteredError = true) (element : Element)
    (reservationId : Identifier) (ambient? : Option String) :
    KeepsRecords s (s.readAce .strict element reservationId ambient?).1 ∧
      (s.readAce .strict element reservationId ambient?).2 = none := by
  refine ⟨?_, settle_snd_of_error hs _ _⟩
  rw [readAce, settle_fst]
  exact perform_keepsRecords hs (UrlAce.ofReader_of_mem_actions element reservationId ambient?)

/-! ### The first error -/

/-- References that follow the reservations are the same where the reservations are. -/
theorem ReferencesFollow.references_eq (hs : s.ReferencesFollow) (ht : t.ReferencesFollow)
    (hplatform : t.platform = s.platform) (hreservations : t.reservations = s.reservations) :
    t.references = s.references := by
  apply Table.ext
  rw [ht, hs, hplatform, hreservations]

theorem act_keepsRecords_of_first_error {action : Action} (hfollow : s.ReferencesFollow)
    (haction : action.isOfReader = true) (hs : s.encounteredError = false)
    (herror : (s.act .strict action).encounteredError = true) :
    KeepsRecords s (s.act .strict action) := by
  obtain ⟨-, -, -, hreservations, haces⟩ := act_of_first_error hs herror
  have hplatform : (s.act .strict action).platform = s.platform :=
    (stable_platform s.platform).act rfl .strict action
  refine ⟨hreservations, haces, ?_⟩
  exact hfollow.references_eq (act_referencesFollow hfollow .strict haction) hplatform hreservations

/-- What a run of readers has stored, it had stored while there was no error. -/
theorem exists_keepsRecords {actions : List Action} (platform : Platform)
    (hactions : ∀ action ∈ actions, action.isOfReader = true) :
    ∃ before after, actions = before ++ after ∧ ((start platform).perform .strict before).NoError ∧
      KeepsRecords ((start platform).perform .strict before)
        ((start platform).perform .strict actions) := by
  cases herror : ((start platform).perform .strict actions).encounteredError with
  | false =>
    refine ⟨actions, [], (List.append_nil actions).symm, ?_, rfl, rfl, rfl⟩
    exact (start_perform_noError_iff platform .strict actions).mpr herror
  | true =>
    obtain ⟨before, action, after, rfl, hbefore, hfirst⟩ :=
      exists_first_error (s := start platform) rfl herror
    rw [List.forall_mem_append, List.forall_mem_cons] at hactions
    obtain ⟨hearlier, haction, hlater⟩ := hactions
    have hfollow := perform_referencesFollow (start_referencesFollow platform) .strict hearlier
    have hstored := act_keepsRecords_of_first_error hfollow haction hbefore hfirst
    have hrest := keepsRecords_of_records (perform_records_of_error hfirst hlater)
    refine ⟨before, action :: after, rfl,
      (start_perform_noError_iff platform .strict before).mpr hbefore, ?_⟩
    rw [perform_append, perform_cons]
    exact ⟨hrest.reservations.trans hstored.reservations, hrest.aces.trans hstored.aces,
      hrest.references.trans hstored.references⟩

end Session

/--
**Once an error has been reported, no record is written any more.**

On a session with an error, however it came about, the readers of both elements answer nothing and
leave the records as they were, and so does every element that is dispatched, under every registry
whose handlers are such readers.  In the compilation of a document, nothing is stored from the first
error on, so what is stored in the end is what was stored while there was none.
-/
theorem error_freezes_records :
    (∀ s : Session, s.encounteredError = true →
      (∀ registry : Registry, registry.HasReaders → ∀ d : Dispatch,
        s.KeepsRecords (registry.dispatchInto .strict s d)) ∧
      (∀ element owner, s.KeepsRecords (s.readReservation .strict element owner).1 ∧
        (s.readReservation .strict element owner).2 = none) ∧
      ∀ element reservationId ambient?,
        s.KeepsRecords (s.readAce .strict element reservationId ambient?).1 ∧
        (s.readAce .strict element reservationId ambient?).2 = none) ∧
    ∀ (doc : Document) (platform : Platform),
      (∀ before after, doc.actions = before ++ after →
        ¬ ((Session.start platform).perform .strict before).NoError →
        ((Session.start platform).perform .strict before).KeepsRecords (compile doc platform)) ∧
      ∃ before after, doc.actions = before ++ after ∧
        ((Session.start platform).perform .strict before).NoError ∧
        ((Session.start platform).perform .strict before).KeepsRecords (compile doc platform) := by
  refine ⟨?_, ?_⟩
  · intro s hs
    refine ⟨?_, Session.readReservation_of_error hs, Session.readAce_of_error hs⟩
    intro registry hreaders d
    apply Session.keepsRecords_of_records
    exact Session.perform_records_of_error hs
      (Registry.isOfReader_of_mem_dispatch hreaders d.parent d.element d.context)
  · intro doc platform
    have hreaders := doc.isOfReader_of_mem_actions
    refine ⟨?_, Session.exists_keepsRecords platform hreaders⟩
    intro before after hsplit herror
    rw [Session.start_perform_noError_iff, Bool.not_eq_false] at herror
    rw [compile, hsplit, Session.perform_append]
    rw [hsplit, List.forall_mem_append] at hreaders
    exact Session.keepsRecords_of_records (Session.perform_records_of_error herror hreaders.2)

/--
A faultless reservation is not stored after an error, although it
would be if the gate were never closed.
-/
theorem error_freezes_records_reported :
    let s := (Session.start .x86).report ⟨⟨1, 1⟩, .noSecuritySpecified⟩
    s.encounteredError = true ∧ Registry.http.HasReaders ∧
      s.KeepsRecords (Registry.http.dispatchInto .strict s describedReservation) ∧
      (s.readReservation .strict describedReservation.element ⟨"C", none⟩).2 = none ∧
      (s.readAce .strict everyoneAce ⟨"R"⟩ none).2 = none ∧
      (Registry.http.dispatchInto .lenient s describedReservation).reservations.keys = [⟨"R"⟩] := by
  intro s
  have herror : s.encounteredError = true := rfl
  obtain ⟨hdispatch, hreservation, hace⟩ := error_freezes_records.1 s herror
  exact ⟨herror, Registry.http_hasReaders,
    hdispatch Registry.http Registry.http_hasReaders describedReservation,
    (hreservation describedReservation.element ⟨"C", none⟩).2,
    (hace everyoneAce ⟨"R"⟩ none).2, by decide⟩

end UrlReservations
