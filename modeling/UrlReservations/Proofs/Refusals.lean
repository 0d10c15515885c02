/-
An identifier in use is reported once, and before any other error.

A session says two kinds of thing about an action: what the action reports on every session, and
that it refuses the row the action offers (`act_diagnostics`).  A refusal is found only where a row
is about to be stored, a reader's row gets there only while there is no error, and the refusal is an
error itself.  So of a run of readers only the action that brings the first error can be refused
(`exists_first_error`), and everything after it reports what it would report anywhere
(`perform_diagnostics_of_error`).

That leaves what actions report by themselves.  Readers never report an identifier in use
(`reportsNoUse_of_mem_actions`).  What a parent reports when it cannot name an owner is up to the
parent, and has to be asked of it; the parents of the extension report what they miss.
-/
import UrlReservations.Proofs.Dispatching
import UrlReservations.Proofs.Reporting

namespace UrlReservations

open Xml (Element Document)

namespace Session

/-! ### What a session says about an action -/

/-- The report that a reservation is refused, if its identifier is in use. -/
def refuseReservation? (s : Session) (pos : Position) (row : UrlReservation) : Option Diagnostic :=
  if row.id ∈ s.reservations.keys then
    some ⟨pos, .duplicateSymbol Vocabulary.urlReservationTable row.id.text⟩
  else none

/-- The report that an access control entry is refused, if its identifier is in use. -/
def refuseAce? (s : Session) (pos : Position) (row : UrlAce) : Option Diagnostic :=
  if row.id ∈ s.aces.keys then some ⟨pos, .duplicateSymbol Vocabulary.urlAceTable row.id.text⟩
  else none

/-- The report that a session refuses the row of an action, if it gets that far and is refused. -/
def refusal? (policy : Policy) (s : Session) : Action → Option Diagnostic
  | .always (.addReservation pos row) => s.refuseReservation? pos row
  | .always (.addAce pos row) => s.refuseAce? pos row
  | .emitReservation pos row => if s.gateOpen policy then s.refuseReservation? pos row else none
  | .emitAce pos row => if s.gateOpen policy then s.refuseAce? pos row else none
  | _ => none

/-- Remarks offer no row that could be refused. -/
theorem refusal?_of_isRemark {policy : Policy} {s : Session} {action : Action}
    (h : action.isRemark = true) : s.refusal? policy action = none := by
  cases action with
  | always operation =>
    cases operation with
    | addReservation pos row => exact absurd h Bool.false_ne_true
    | addAce pos row => exact absurd h Bool.false_ne_true
    | _ => rfl
  | _ => exact absurd h Bool.false_ne_true

theorem addReservation_diagnostics (s : Session) (pos : Position) (row : UrlReservation) :
    (s.addReservation pos row).diagnostics
      = s.diagnostics ++ (s.refuseReservation? pos row).toList := by
  by_cases h : row.id ∈ s.reservations.keys
  · rw [addReservation_of_mem h, refuseReservation?, if_pos h]
    rfl
  · rw [addReservation_of_notMem h, refuseReservation?, if_neg h]
    exact (List.append_nil _).symm

theorem addAce_diagnostics (s : Session) (pos : Position) (row : UrlAce) :
    (s.addAce pos row).diagnostics = s.diagnostics ++ (s.refuseAce? pos row).toList := by
  by_cases h : row.id ∈ s.aces.keys
  · rw [addAce_of_mem h, refuseAce?, if_pos h]
    rfl
  · rw [addAce_of_notMem h, refuseAce?, if_neg h]
    exact (List.append_nil _).symm

/--
**What a session says about an action** is what the action reports
anywhere, or that its row is refused.
-/
theorem act_diagnostics (policy : Policy) (s : Session) (action : Action) :
    (s.act policy action).diagnostics
      = s.diagnostics ++ (action.diagnostic?.toList ++ (s.refusal? policy action).toList) := by
  cases action with
  | always operation =>
    cases operation with
    | addReservation pos row => exact s.addReservation_diagnostics pos row
    | addAce pos row => exact s.addAce_diagnostics pos row
    | addReference reference => exact (List.append_nil _).symm
    | _ => rfl
  | emitReservation pos row =>
    rw [act, refusal?]
    split
    · exact s.addReservation_diagnostics pos row
    · exact (List.append_nil _).symm
  | emitAce pos row =>
    rw [act, refusal?]
    split
    · exact s.addAce_diagnostics pos row
    · exact (List.append_nil _).symm

/-! ### Rows that identifiers in use belong to -/

/--
The row whose identifier a diagnostic says is in use is in the table that the diagnostic names.
-/
def Holds (s : Session) (d : Diagnostic) : Prop :=
  match d.message with
  | .duplicateSymbol table id =>
    (table = "WixHttpUrlReservation" ∧ ∃ row ∈ s.reservations.rows, row.id.text = id) ∨
      (table = "WixHttpUrlAce" ∧ ∃ row ∈ s.aces.rows, row.id.text = id)
  | _ => False

theorem holds_of_refuseReservation? {s : Session} {pos : Position} {row : UrlReservation}
    {d : Diagnostic} (h : s.refuseReservation? pos row = some d) : s.Holds d := by
  rw [refuseReservation?, Option.ite_none_right_eq_some, Option.some.injEq] at h
  obtain ⟨hmem, rfl⟩ := h
  obtain ⟨stored, hstored, hid⟩ := List.mem_map.mp hmem
  exact .inl ⟨rfl, stored, hstored, congrArg Identifier.text hid⟩

theorem holds_of_refuseAce? {s : Session} {pos : Position} {row : UrlAce} {d : Diagnostic}
    (h : s.refuseAce? pos row = some d) : s.Holds d := by
  rw [refuseAce?, Option.ite_none_right_eq_some, Option.some.injEq] at h
  obtain ⟨hmem, rfl⟩ := h
  obtain ⟨stored, hstored, hid⟩ := List.mem_map.mp hmem
  exact .inr ⟨rfl, stored, hstored, congrArg Identifier.text hid⟩

/-- A session that refuses a row has the row it refuses it for. -/
theorem holds_of_refusal? {policy : Policy} {s : Session} {action : Action} {d : Diagnostic}
    (h : s.refusal? policy action = some d) : s.Holds d := by
  unfold refusal? at h
  split at h
  · exact holds_of_refuseReservation? h
  · exact holds_of_refuseAce? h
  · exact holds_of_refuseReservation? (Option.ite_none_right_eq_some.mp h).2
  · exact holds_of_refuseAce? (Option.ite_none_right_eq_some.mp h).2
  · exact absurd h (Option.some_ne_none d).symm

theorem Holds.of_extends {s t : Session} {d : Diagnostic} (h : s.Holds d) (hextends : Extends s t) :
    t.Holds d := by
  unfold Holds at h ⊢
  split at h
  · rcases h with ⟨htable, row, hrow, hid⟩ | ⟨htable, row, hrow, hid⟩
    · exact .inl ⟨htable, row, hextends.reservations.subset hrow, hid⟩
    · exact .inr ⟨htable, row, hextends.aces.subset hrow, hid⟩
  · exact h.elim

/-! ### Runs of readers -/

/-- Once there is an error, readers report what they report anywhere. -/
theorem perform_diagnostics_of_error {s : Session} {actions : List Action}
    (hs : s.encounteredError = true) (hactions : ∀ action ∈ actions, action.isOfReader = true) :
    (s.perform .strict actions).diagnostics
      = s.diagnostics ++ actions.filterMap Action.diagnostic? := by
  induction actions generalizing s with
  | nil => exact (List.append_nil _).symm
  | cons action rest ih =>
    rw [List.forall_mem_cons] at hactions
    have hclosed : s.gateOpen .strict = false := by simp [gateOpen, hs]
    have hrefusal : s.refusal? .strict action = none := by
      cases action with
      | always operation => exact refusal?_of_isRemark hactions.1
      | emitReservation pos row => simp [refusal?, hclosed]
      | emitAce pos row => simp [refusal?, hclosed]
    rw [perform_cons, ih (stable_encounteredError.act hs .strict action) hactions.2,
      act_diagnostics, hrefusal, filterMap_cons_eq, Option.toList_none, List.append_nil,
      List.append_assoc]

end Session

/-- An action does not report by itself that an identifier is in use. -/
def Action.ReportsNoUse (action : Action) : Prop := ∀ d ∈ action.diagnostic?, d.isDuplicate = false

namespace Session

/--
The report of an identifier in use is the first error of a run of readers, the only such report, and
made where the row it is about is stored.
-/
theorem start_perform_duplicate {platform : Platform} {actions : List Action}
    (hreaders : ∀ action ∈ actions, action.isOfReader = true)
    (hown : ∀ action ∈ actions, action.ReportsNoUse) {before after : List Diagnostic}
    {d : Diagnostic}
    (h : ((start platform).perform .strict actions).diagnostics = before ++ d :: after)
    (hd : d.isDuplicate = true) :
    (∀ e ∈ before, e.isError = false) ∧ (∀ e ∈ after, e.isDuplicate = false) ∧
      ∃ earlier later, actions = earlier ++ later ∧
        ((start platform).perform .strict earlier).diagnostics = before ∧
        ((start platform).perform .strict earlier).Holds d := by
  have herror : ((start platform).perform .strict actions).encounteredError = true := by
    rw [stable_flagAgrees.perform (start_flagAgrees platform) .strict actions, h, List.any_append,
      List.any_cons, Diagnostic.isError_of_isDuplicate hd, Bool.true_or, Bool.or_true]
  obtain ⟨earlier, action, later, rfl, hearlier, hfirst⟩ :=
    exists_first_error (s := start platform) rfl herror
  obtain ⟨e, -, hadded, -, -⟩ := act_of_first_error hearlier hfirst
  rw [List.forall_mem_append, List.forall_mem_cons] at hreaders hown
  have hbefore : ∀ e ∈ ((start platform).perform .strict earlier).diagnostics, e.isError = false :=
    (start_perform_noError_iff platform .strict earlier).mpr hearlier
  have hafter : ∀ e ∈ later.filterMap Action.diagnostic?, e.isDuplicate = false := by
    intro e he
    obtain ⟨other, hother, hreport⟩ := List.mem_filterMap.mp he
    exact hown.2.2 other hother e hreport
  -- what is reported is what there was, the first error, and what the rest reports anywhere
  rw [perform_append, perform_cons, perform_diagnostics_of_error hfirst hreaders.2.2, hadded,
    List.append_assoc, List.singleton_append, List.append_cons_inj_of_notMem] at h
  · obtain ⟨rfl, rfl, rfl⟩ := h
    refine ⟨hbefore, hafter, earlier, action :: later, rfl, rfl, ?_⟩
    have hsaid := act_diagnostics .strict ((start platform).perform .strict earlier) action
    rw [hadded, List.append_cancel_left_eq] at hsaid
    have hmem : e ∈ action.diagnostic?.toList ++ (refusal? .strict _ action).toList :=
      hsaid ▸ List.mem_singleton_self e
    rcases List.mem_append.mp hmem with hreport | hrefused
    · rw [hown.2.1 e (Option.mem_toList.mp hreport)] at hd
      exact absurd hd Bool.false_ne_true
    · exact holds_of_refusal? (Option.mem_toList.mp hrefused)
  · intro hmem
    exact absurd (hbefore d hmem) (by simp [Diagnostic.isError_of_isDuplicate hd])
  · intro hmem
    rw [hafter d hmem] at hd
    exact absurd hd Bool.false_ne_true

end Session

/-! ### What readers report by themselves -/

theorem Action.reportsNoUse_report {d : Diagnostic} (h : d.isDuplicate = false) :
    (report d).ReportsNoUse := by
  intro e he
  rw [← Option.some.inj he]
  exact h

theorem Action.OfReader.reportsNoUse {action : Action} (h : action.OfReader) :
    action.ReportsNoUse := by
  cases h with
  | report h => exact reportsNoUse_report h
  | extensionAttribute item => exact reportsNoUse_report rfl
  | extensionElement item => exact reportsNoUse_report rfl
  | emitReservation pos row => exact fun d hd => absurd hd (Option.not_mem_none d)
  | emitAce pos row => exact fun d hd => absurd hd (Option.not_mem_none d)

namespace Registry

variable {registry : Registry}

/--
No parent that cannot name an owner reports an identifier in use instead.  What a parent is there to
report is a value it misses.
-/
def ParentsReportNoUse (registry : Registry) : Prop :=
  ∀ name resolve context message, registry.parent? name = some resolve →
    resolve context = .error message →
    ∀ table id, message ≠ .duplicateSymbol table id

/-- Only an owner that its parent cannot name is ever unresolved. -/
theorem resolve_of_route {parent element : Element} {context : ParentContext} {message : Message}
    (h : registry.route parent element context = .unresolved message) :
    ∃ resolve, registry.parent? parent.name = some resolve ∧ resolve context = .error message := by
  unfold RegistryOf.route at h
  split at h
  · cases h
  · split at h
    · cases h
    · split at h
      · rename_i resolve handler hresolve hhandler
        split at h
        · cases h
        · rename_i reason hreason
          cases h
          exact ⟨resolve, hresolve, hreason⟩
      · cases h

theorem reportsNoUse_of_mem_dispatch (h : registry.HasReaders)
    (hparents : registry.ParentsReportNoUse) (parent element : Element) (context : ParentContext) :
    ∀ action ∈ registry.dispatch parent element context, action.ReportsNoUse := by
  intro action haction
  unfold dispatch at haction
  split at haction
  · rw [List.mem_singleton.mp haction]
    exact (Action.OfReader.extensionElement _).reportsNoUse
  · rw [List.mem_singleton.mp haction]
    exact Action.reportsNoUse_report rfl
  · rename_i message hroute
    obtain ⟨resolve, hresolve, hreason⟩ := resolve_of_route hroute
    have hmessage := hparents parent.name resolve context message hresolve hreason
    rw [List.mem_singleton.mp haction]
    refine Action.reportsNoUse_report ?_
    unfold Diagnostic.isDuplicate
    split
    · rename_i table id hduplicate
      exact absurd hduplicate (hmessage table id)
    · rfl
  · rename_i handler owner hroute
    exact ((h element.name handler (handler?_of_route hroute)).ofReader element owner action
      haction).reportsNoUse

/-- The parents of the extension report the value they miss. -/
theorem http_parentsReportNoUse : http.ParentsReportNoUse := by
  intro name resolve context message hresolve hreason table id
  obtain ⟨element, key, rfl⟩ := missing_of_resolve_http hresolve hreason
  exact Message.noConfusion

end Registry

theorem Xml.Document.reportsNoUse_of_mem_actions (doc : Document) :
    ∀ action ∈ doc.actions, action.ReportsNoUse := by
  intro action haction
  obtain ⟨entry, -, haction⟩ := List.mem_flatMap.mp haction
  unfold Place.actions at haction
  split at haction
  · exact absurd haction List.not_mem_nil
  · exact Registry.reportsNoUse_of_mem_dispatch Registry.http_hasReaders
      Registry.http_parentsReportNoUse _ _ _ action haction

/-! ### Whole runs -/

theorem countP_le_one_of_later {α : Type} {p : α → Bool} {l : List α}
    (h : ∀ before a after, l = before ++ a :: after → p a = true → ∀ b ∈ after, p b = false) :
    l.countP p ≤ 1 := by
  induction l with
  | nil => exact Nat.zero_le 1
  | cons a rest ih =>
    by_cases ha : p a = true
    · have hrest : rest.countP p = 0 := by
        rw [List.countP_eq_zero]
        intro b hb
        simp [h [] a rest rfl ha b hb]
      exact Nat.le_of_eq ((List.countP_cons_of_pos ha).trans (by rw [hrest]))
    · rw [List.countP_cons_of_neg ha]
      refine ih fun before b after hsplit hb => ?_
      exact h (a :: before) b after (congrArg (a :: ·) hsplit) hb

/--
In a session that actions led to, an identifier in use is reported at most once and before any other
error, and the row that uses it is stored, in the session and already when the report is made.
-/
structure Session.ReportsUseFirst (s : Session) (platform : Platform) (actions : List Action) :
    Prop where
  atMostOnce : s.diagnostics.countP (·.isDuplicate) ≤ 1
  first : ∀ before d after, s.diagnostics = before ++ d :: after → d.isDuplicate = true →
    (∀ e ∈ before, e.isError = false) ∧ s.Holds d ∧
      ∃ earlier later, actions = earlier ++ later ∧
        ((start platform).perform .strict earlier).diagnostics = before ∧
        ((start platform).perform .strict earlier).Holds d

theorem Session.start_perform_reportsUseFirst {platform : Platform} {actions : List Action}
    (hreaders : ∀ action ∈ actions, action.isOfReader = true)
    (hown : ∀ action ∈ actions, action.ReportsNoUse) :
    ((start platform).perform .strict actions).ReportsUseFirst platform actions := by
  refine ⟨countP_le_one_of_later ?_, ?_⟩
  · intro before d after hsplit hd
    exact (start_perform_duplicate hreaders hown hsplit hd).2.1
  · intro before d after hsplit hd
    obtain ⟨hbefore, -, earlier, later, rfl, hreached, hholds⟩ :=
      start_perform_duplicate hreaders hown hsplit hd
    refine ⟨hbefore, ?_, earlier, later, rfl, hreached, hholds⟩
    rw [perform_append]
    exact hholds.of_extends (perform_extends .strict _ later)

/-- A reservation with a descriptor and an identifier, under a component. -/
def describedReservation : Dispatch :=
  let start : Position := ⟨1, 1⟩
  let own name value : Xml.Attribute := ⟨none, name, value, start⟩
  let attributes := [own "Id" "R", own "Url" "http://+:80/", own "Sddl" "D:"]
  ⟨⟨⟨none, "Component", [], start⟩, []⟩,
    ⟨⟨some Vocabulary.httpNamespace, "UrlReservation", attributes, ⟨2, 3⟩⟩, []⟩,
    .ofList [(Vocabulary.componentIdKey, "C")]⟩

/--
**An identifier in use is reported at most once, and only as the first error.**

So it is for every document, and for all elements dispatched in turn on a new session, under every
registry whose handlers are readers of the extension and whose parents report what they miss.  The
row that the report names is in the table it names by then.
-/
theorem use_reported_first :
    (∀ (doc : Document) (platform : Platform),
      (compile doc platform).ReportsUseFirst platform doc.actions) ∧
    ∀ (registry : Registry), registry.HasReaders → registry.ParentsReportNoUse →
      ∀ (platform : Platform) (dispatches : List Dispatch),
        (registry.run .strict (.start platform) dispatches).ReportsUseFirst platform
          (registry.actions dispatches) := by
  refine ⟨?_, ?_⟩
  · intro doc platform
    exact Session.start_perform_reportsUseFirst doc.isOfReader_of_mem_actions
      doc.reportsNoUse_of_mem_actions
  · intro registry hreaders hparents platform dispatches
    rw [Registry.run_eq_perform]
    refine Session.start_perform_reportsUseFirst
      (Registry.isOfReader_of_mem_actions hreaders dispatches) ?_
    intro action haction
    obtain ⟨d, -, haction⟩ := List.mem_flatMap.mp haction
    exact Registry.reportsNoUse_of_mem_dispatch hreaders hparents d.parent d.element d.context
      action haction

/-- Of a reservation dispatched three times, the second is refused, and the third goes unnoticed. -/
theorem use_reported_first_repeated :
    let dispatches := List.replicate 3 describedReservation
    Registry.http.HasReaders ∧ Registry.http.ParentsReportNoUse ∧
      (Registry.http.run .strict (.start .x86) dispatches).ReportsUseFirst .x86
        (Registry.http.actions dispatches) ∧
      (Registry.http.run .strict (.start .x86) dispatches).diagnostics
        = [⟨⟨2, 3⟩, .duplicateSymbol "WixHttpUrlReservation" "R"⟩] :=
  ⟨Registry.http_hasReaders, Registry.http_parentsReportNoUse,
    use_reported_first.2 Registry.http Registry.http_hasReaders
      Registry.http_parentsReportNoUse .x86 (List.replicate 3 describedReservation),
    by decide⟩

/-- A registry with a component that always answers that a reservation is in use. -/
def Registry.withContraryComponent : Registry :=
  http.registerParent Vocabulary.component fun _ =>
    .error (.duplicateSymbol Vocabulary.urlReservationTable "R")

/--
The parents have to be asked.  One that answers that an identifier is in use is taken at its word,
each time, whether or not there is a row.
-/
theorem use_reported_first_fails_contrary :
    let registry := Registry.withContraryComponent
    let dispatches := List.replicate 2 describedReservation
    let s := registry.run .strict (.start .x86) dispatches
    registry.HasReaders ∧
      s.diagnostics
        = List.replicate 2 ⟨⟨1, 1⟩, .duplicateSymbol "WixHttpUrlReservation" "R"⟩ ∧
      s.reservations.rows = [] ∧ ¬ s.ReportsUseFirst .x86 (registry.actions dispatches) := by
  intro registry dispatches s
  have hdiagnostics : s.diagnostics
      = List.replicate 2 ⟨⟨1, 1⟩, .duplicateSymbol "WixHttpUrlReservation" "R"⟩ := by decide
  refine ⟨Registry.http_hasReaders, hdiagnostics, by decide, ?_⟩
  intro h
  have honce := h.atMostOnce
  rw [hdiagnostics] at honce
  exact absurd honce (by decide)

end UrlReservations
