/-
The gate cuts off at the first error.

A lenient session goes on storing rows whatever is reported, a strict one stops.  So a strict
run is not some other run: up to the first error it is the lenient run, and after it nothing is
stored.  The first error may fall anywhere, also between two access control entries of one
reservation, which is why the cut is found among the actions and not among the elements.
-/
import UrlReservations.Proofs.Dispatching

namespace UrlReservations

open Xml (Element)

namespace Session

variable {platform : Platform} {actions : List Action}

/-- Both policies go through alike. -/
theorem start_strict_noError_iff (platform : Platform) (actions : List Action) :
    ((start platform).perform .strict actions).NoError ↔
      ((start platform).perform .lenient actions).NoError := by
  rw [start_perform_noError_iff, start_perform_noError_iff]
  refine ⟨?_, ?_⟩
  · intro h
    rw [← perform_eq_of_noError .strict .lenient h]
    exact h
  · intro h
    rw [← perform_eq_of_noError .lenient .strict h]
    exact h

/--
A lenient run has come to a session without errors, and goes on with one that adds its first error
and nothing else; a strict session holds the rows there were until then.
-/
structure CutAt (strict reached next : Session) : Prop where
  noError : reached.NoError
  error : ∃ d, d.isError = true ∧ next.diagnostics = reached.diagnostics ++ [d]
  unchanged : next.reservations = reached.reservations ∧ next.aces = reached.aces
  reservations : strict.reservations = reached.reservations
  aces : strict.aces = reached.aces

/-- The first error of a lenient run is where a strict run of the same actions is cut off. -/
theorem exists_cut (hreaders : ∀ action ∈ actions, action.isOfReader = true)
    (herror : ((start platform).perform .lenient actions).encounteredError = true) :
    ∃ before action after, actions = before ++ action :: after ∧
      ((start platform).perform .strict actions).CutAt ((start platform).perform .lenient before)
        (((start platform).perform .lenient before).act .lenient action) := by
  obtain ⟨before, action, after, rfl, hbefore, hfirst⟩ :=
    exists_first_error (s := start platform) rfl herror
  obtain ⟨d, hd, hdiagnostics, hunchanged⟩ := act_of_first_error hbefore hfirst
  -- up to the first error, that one included, the two runs are one
  have hsame : (start platform).perform .strict (before ++ action :: after)
      = (((start platform).perform .lenient before).act .lenient action).perform .strict after := by
    rw [perform_append, perform_cons, ← perform_eq_of_noError .lenient .strict hbefore,
      act_eq_of_noError hbefore .strict .lenient]
  have hafter : ∀ later ∈ after, later.isOfReader = true := by
    intro later hlater
    exact hreaders later (List.mem_append_right _ (List.mem_cons_of_mem _ hlater))
  have hrecords := perform_records_of_error hfirst hafter
  refine ⟨before, action, after, rfl, ?_, ⟨d, hd, hdiagnostics⟩, hunchanged, ?_, ?_⟩
  · exact (start_perform_noError_iff platform .lenient before).mpr hbefore
  · rw [hsame, ← hunchanged.1]
    exact Table.ext (congrArg RecordSet.urlReservations hrecords)
  · rw [hsame, ← hunchanged.2]
    exact Table.ext (congrArg RecordSet.urlAces hrecords)

/-- What a strict run stores, a lenient run of the same actions stores first. -/
theorem strict_rows_prefix (platform : Platform)
    (hreaders : ∀ action ∈ actions, action.isOfReader = true) :
    ((start platform).perform .strict actions).reservations.rows <+:
        ((start platform).perform .lenient actions).reservations.rows ∧
      ((start platform).perform .strict actions).aces.rows <+:
        ((start platform).perform .lenient actions).aces.rows := by
  cases herror : ((start platform).perform .lenient actions).encounteredError with
  | false =>
    rw [perform_eq_of_noError .lenient .strict herror]
    exact ⟨List.prefix_rfl, List.prefix_rfl⟩
  | true =>
    obtain ⟨before, action, after, rfl, hcut⟩ := exists_cut hreaders herror
    have hgrown :=
      perform_extends .lenient ((start platform).perform .lenient before) (action :: after)
    rw [hcut.reservations, hcut.aces, perform_append]
    exact ⟨hgrown.reservations, hgrown.aces⟩

end Session

/--
How elements dispatched into a strict session compare with the same elements on a lenient one.
-/
structure Registry.TruncatesAtError (registry : Registry) (platform : Platform)
    (dispatches : List Dispatch) : Prop where
  noError_iff : (registry.run .strict (.start platform) dispatches).NoError ↔
    (registry.run .lenient (.start platform) dispatches).NoError
  same : (registry.run .lenient (.start platform) dispatches).NoError →
    registry.run .strict (.start platform) dispatches
      = registry.run .lenient (.start platform) dispatches
  reservations : (registry.run .strict (.start platform) dispatches).reservations.rows <+:
    (registry.run .lenient (.start platform) dispatches).reservations.rows
  aces : (registry.run .strict (.start platform) dispatches).aces.rows <+:
    (registry.run .lenient (.start platform) dispatches).aces.rows
  cut : ¬ (registry.run .lenient (.start platform) dispatches).NoError →
    ∃ before action after, registry.actions dispatches = before ++ action :: after ∧
      (registry.run .strict (.start platform) dispatches).CutAt
        ((Session.start platform).perform .lenient before)
        (((Session.start platform).perform .lenient before).act .lenient action)

/--
**A strict run is a lenient one cut off at the first error.**

Whatever elements are dispatched on a new session, under whatever registry of readers: both runs
have an error or neither has, without one they are the same, and the rows of the strict run are
the rows the lenient one had when it reported its first error.
-/
theorem strict_run_truncates {registry : Registry} (h : registry.HasReaders) (platform : Platform)
    (dispatches : List Dispatch) : registry.TruncatesAtError platform dispatches := by
  have hreaders := Registry.isOfReader_of_mem_actions h dispatches
  have hprefix := Session.strict_rows_prefix platform hreaders
  refine ⟨?_, ?_, ?_, ?_, ?_⟩ <;> simp only [Registry.run_eq_perform]
  · exact Session.start_strict_noError_iff platform _
  · intro hclean
    rw [Session.start_perform_noError_iff] at hclean
    exact (Session.perform_eq_of_noError .lenient .strict hclean).symm
  · exact hprefix.1
  · exact hprefix.2
  · intro herror
    rw [Session.start_perform_noError_iff, Bool.not_eq_false] at herror
    obtain ⟨before, action, after, hactions, hcut⟩ := Session.exists_cut hreaders herror
    exact ⟨before, action, after, hactions, hcut⟩

/--
A reservation whose two access control entries have an element between
them that may not stand there.
-/
def interruptedReservation : Dispatch :=
  let start : Position := ⟨1, 1⟩
  let own name value : Xml.Attribute := ⟨none, name, value, start⟩
  let http name attributes : Xml.Tag := ⟨some Vocabulary.httpNamespace, name, attributes, start⟩
  let ace id := .element (http "UrlAce" [own "Id" id, own "SecurityPrincipal" "Everyone"]) []
  let reservation := http "UrlReservation" [own "Id" "R", own "Url" "http://+:80/"]
  ⟨⟨⟨none, "Component", [], start⟩, []⟩,
    ⟨reservation, [ace "A", .element (http "Note" []) [], ace "B"]⟩,
    .ofList [(Vocabulary.componentIdKey, "C")]⟩

/--
Of its rows, the strict run has the first entry, and the lenient one
both entries and the reservation.
-/
theorem strict_run_truncates_interrupted :
    Registry.http.HasReaders ∧ Registry.http.TruncatesAtError .x86 [interruptedReservation] ∧
      (Registry.http.run .strict (.start .x86) [interruptedReservation]).aces.keys = [⟨"A"⟩] ∧
      (Registry.http.run .strict (.start .x86) [interruptedReservation]).reservations.keys = [] ∧
      (Registry.http.run .lenient (.start .x86) [interruptedReservation]).aces.keys
        = [⟨"A"⟩, ⟨"B"⟩] ∧
      (Registry.http.run .lenient (.start .x86) [interruptedReservation]).reservations.keys
        = [⟨"R"⟩] :=
  ⟨Registry.http_hasReaders,
    strict_run_truncates Registry.http_hasReaders .x86 [interruptedReservation],
    by decide, by decide, by decide, by decide⟩

end UrlReservations
