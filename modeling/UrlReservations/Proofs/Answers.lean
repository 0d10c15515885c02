/-
What the answer of a reader is worth.

A reader answers with the row it emitted, and says nothing if it emitted none.  What it goes by is
the gate: it offers its row to the session and answers with it, and the session has no way to answer
the reader in turn.  So the answer is right as long as the session takes the row.  It is the row all
the same if the session refuses it because its identifier is in use, although nothing was added, and
that is the only case in which the answer does not say what became of the table.

Reservations and access control entries are alike in this, so the argument is made once, for rows
that are emitted into any table of a session (`EmitsInto`).
-/
import UrlReservations.Proofs.Operations
import UrlReservations.Proofs.Refusals

namespace UrlReservations

open Xml (Element)

/-! ### Answers that tell what was added -/

namespace Table

variable {ρ κ : Type} {key : ρ → κ}

/-- An answer tells what was added to a table: the row that it is, or nothing. -/
structure ToldBy (before after : Table key) (answer : Option ρ) : Prop where
  some_iff : ∀ row, answer = some row ↔ after.rows = before.rows ++ [row]
  none_iff : answer = none ↔ after = before

theorem toldBy_none (table : Table key) : table.ToldBy table none := by
  refine ⟨?_, iff_of_true rfl rfl⟩
  intro row
  simp

/-- A row that is offered and answered tells what was added exactly if its key was not in use. -/
theorem toldBy_insertNew_iff [DecidableEq κ] (table : Table key) (row : ρ) :
    table.ToldBy (table.insertNew row) (some row) ↔ key row ∉ table.keys := by
  refine ⟨?_, ?_⟩
  · intro htold hmem
    exact Option.some_ne_none row (htold.none_iff.mpr (insertNew_of_mem hmem))
  · intro hmem
    rw [insertNew_of_notMem hmem]
    refine ⟨?_, ?_⟩
    · intro other
      simp
    · refine iff_of_false (Option.some_ne_none row) ?_
      intro hsame
      have hrows := congrArg rows hsame
      simp at hrows

end Table

namespace Session

/-! ### Rows on their way into a table -/

variable {ρ : Type} {key : ρ → Identifier} {policy : Policy} {emit : ρ → Action}
    {table : Session → Table key} {refusal : ρ → Diagnostic}

/-- Rows go into one table as long as the gate is open, and those that are refused are reported. -/
structure EmitsInto (policy : Policy) (emit : ρ → Action) (table : Session → Table key)
    (refusal : ρ → Diagnostic) : Prop where
  closed : ∀ (s : Session) (row : ρ), s.gateOpen policy = false → s.act policy (emit row) = s
  stored : ∀ (s : Session) (row : ρ), s.gateOpen policy = true →
    table (s.act policy (emit row)) = (table s).insertNew row
  refused : ∀ (s : Session) (row : ρ), s.gateOpen policy = true → key row ∈ (table s).keys →
    (s.act policy (emit row)).diagnostics = s.diagnostics ++ [refusal row]

/-- The report that the reservation read from an element is refused. -/
def reservationRefusal (element : Element) (row : UrlReservation) : Diagnostic :=
  ⟨element.pos, .duplicateSymbol Vocabulary.urlReservationTable row.id.text⟩

/-- The report that the access control entry read from an element is refused. -/
def aceRefusal (element : Element) (row : UrlAce) : Diagnostic :=
  ⟨element.pos, .duplicateSymbol Vocabulary.urlAceTable row.id.text⟩

theorem emitReservation_emitsInto (policy : Policy) (element : Element) :
    EmitsInto policy (.emitReservation element.pos) reservations (reservationRefusal element) where
  closed s row hclosed := by rw [act, hclosed, if_neg Bool.false_ne_true]
  stored s row hopen := by rw [act, if_pos hopen, emitReservation_reservations,
    addReservation_reservations]
  refused s row hopen hmem := by
    have hdiagnostics := s.act_diagnostics policy (.emitReservation element.pos row)
    rwa [refusal?, if_pos hopen, refuseReservation?, if_pos hmem] at hdiagnostics

theorem emitAce_emitsInto (policy : Policy) (element : Element) :
    EmitsInto policy (.emitAce element.pos) aces (aceRefusal element) where
  closed s row hclosed := by rw [act, hclosed, if_neg Bool.false_ne_true]
  stored s row hopen := by rw [act, if_pos hopen, addAce_aces]
  refused s row hopen hmem := by
    have hdiagnostics := s.act_diagnostics policy (.emitAce element.pos row)
    rwa [refusal?, if_pos hopen, refuseAce?, if_pos hmem] at hdiagnostics

/--
What a call that led from a session to an outcome did to a table: the answer tells it unless the row
was refused, and then the table is what it was and the refusal is the last thing reported.
-/
structure Answers (table : Session → Table key) (refusal : ρ → Diagnostic) (s : Session)
    (outcome : Session × Option ρ) : Prop where
  told_iff : (table s).ToldBy (table outcome.1) outcome.2 ↔
    ∀ row, outcome.2 = some row → key row ∉ (table s).keys
  refused : ∀ row, outcome.2 = some row → key row ∈ (table s).keys →
    table outcome.1 = table s ∧ outcome.1.diagnostics.getLast? = some (refusal row)

theorem answers_none {s t : Session} (h : table t = table s) :
    Answers table refusal s (t, none) := by
  refine ⟨?_, ?_⟩
  · rw [h]
    exact iff_of_true (table s).toldBy_none fun row hrow =>
      absurd hrow.symm (Option.some_ne_none row)
  · intro row hrow
    exact absurd hrow.symm (Option.some_ne_none row)

/-- If only its row may change a table, settling a reading answers for the table. -/
theorem settle_answers (hemits : EmitsInto policy emit table refusal) {s : Session}
    {reading : Reading ρ} (hreading : table (s.perform policy reading.actions) = table s) :
    Answers table refusal s (s.settle policy reading emit) := by
  cases hrow : reading.row? with
  | none =>
    have hsettle : s.settle policy reading emit = (s.perform policy reading.actions, none) := by
      simp only [settle, hrow]
    rw [hsettle]
    exact answers_none hreading
  | some row =>
    cases hgate : (s.perform policy reading.actions).gateOpen policy with
    | false =>
      have hsettle : s.settle policy reading emit = (s.perform policy reading.actions, none) := by
        simp only [settle, hrow, hemits.closed _ row hgate, hgate, Bool.false_eq_true, if_false]
      rw [hsettle]
      exact answers_none hreading
    | true =>
      have hsettle : s.settle policy reading emit
          = ((s.perform policy reading.actions).act policy (emit row), some row) := by
        simp only [settle, hrow, hgate, if_true]
      have hstored := hemits.stored _ row hgate
      rw [hreading] at hstored
      rw [hsettle]
      refine ⟨?_, ?_⟩
      · simp only [hstored, Option.some.injEq, forall_eq']
        exact (table s).toldBy_insertNew_iff row
      · intro other hother hmem
        obtain rfl : row = other := Option.some.inj hother
        refine ⟨hstored.trans (Table.insertNew_of_mem hmem), ?_⟩
        rw [← hreading] at hmem
        rw [hemits.refused _ row hgate hmem, List.getLast?_concat]

/-! ### What comes before the row -/

theorem act_tables_of_none (policy : Policy) (s : Session) (action : Action) :
    (action.reservation? = none → (s.act policy action).reservations = s.reservations) ∧
      (action.ace? = none → (s.act policy action).aces = s.aces) := by
  cases action with
  | always operation =>
    obtain ⟨hreservations, haces, -⟩ := s.apply_tables operation
    rw [act, hreservations, haces]
    cases operation <;>
      simp [Operation.reservation?, Operation.ace?, Action.reservation?, Action.ace?]
  | emitReservation pos row =>
    refine ⟨fun h => absurd h (Option.some_ne_none row), fun _ => ?_⟩
    rw [act]
    split
    · rw [emitReservation_aces, addReservation_aces]
    · rfl
  | emitAce pos row =>
    refine ⟨fun _ => ?_, fun h => absurd h (Option.some_ne_none row)⟩
    rw [act]
    split
    · exact (s.addAce_references pos row).2
    · rfl

/-- What no action of a list changes, the list does not change. -/
theorem perform_part_eq {τ : Type} {part : Session → τ} {actions : List Action}
    (h : ∀ action ∈ actions, ∀ s : Session, part (s.act policy action) = part s) (s : Session) :
    part (s.perform policy actions) = part s := by
  induction actions generalizing s with
  | nil => rfl
  | cons action rest ih =>
    rw [List.forall_mem_cons] at h
    rw [perform_cons, ih h.2, h.1]

end Session

/-! ### Readers -/

/--
**A reader answers what it added to its table, unless the row it answers was refused.**

So it is from every session, whatever the element, for reservations and for access control entries.
-/
theorem answers_tell_unless_refused (policy : Policy) (s : Session) (element : Element) :
    (∀ owner : Owner, Session.Answers Session.reservations (Session.reservationRefusal element) s
      (s.readReservation policy element owner)) ∧
    ∀ (reservationId : Identifier) (ambient? : Option String),
      Session.Answers Session.aces (Session.aceRefusal element) s
        (s.readAce policy element reservationId ambient?) := by
  refine ⟨?_, ?_⟩
  · intro owner
    refine Session.settle_answers (Session.emitReservation_emitsInto policy element) ?_
    have hnone := List.filterMap_eq_nil_iff.mp (UrlReservation.reservations_read element owner)
    exact Session.perform_part_eq (fun action haction t =>
      (Session.act_tables_of_none policy t action).1 (hnone action haction)) s
  · intro reservationId ambient?
    refine Session.settle_answers (Session.emitAce_emitsInto policy element) ?_
    have hremarks := UrlAce.isRemark_of_mem_read element reservationId ambient?
    exact Session.perform_part_eq (fun action haction t =>
      (Session.act_tables_of_none policy t action).2
      (Action.ace?_of_isRemark (hremarks action haction))) s

/-- An access control entry with an identifier and a principal. -/
def everyoneAce : Element :=
  let start : Position := ⟨1, 1⟩
  let own name value : Xml.Attribute := ⟨none, name, value, start⟩
  ⟨⟨some Vocabulary.httpNamespace, "UrlAce",
    [own "Id" "A", own "SecurityPrincipal" "Everyone"], ⟨2, 3⟩⟩, []⟩

/-- A session that has both rows already refuses them, and both are answered. -/
theorem refused_rows_answered :
    let reservation : UrlReservation := ⟨⟨"R"⟩, .replace, some "D:", "http://+:80/", "C"⟩
    let ace : UrlAce := ⟨⟨"A"⟩, ⟨"R"⟩, "Everyone", .all⟩
    let s := ((Session.start .x86).addReservation ⟨1, 1⟩ reservation).addAce ⟨1, 1⟩ ace
    let reserved := s.readReservation .strict describedReservation.element ⟨"C", none⟩
    let allowed := s.readAce .strict everyoneAce ⟨"R"⟩ none
    s.diagnostics = [] ∧
      (reserved.2 = some reservation ∧ reserved.1.reservations = s.reservations ∧
        ¬ s.reservations.ToldBy reserved.1.reservations reserved.2) ∧
      (allowed.2 = some ace ∧ allowed.1.aces = s.aces ∧
        ¬ s.aces.ToldBy allowed.1.aces allowed.2) := by
  refine ⟨by decide, ⟨by decide, by decide, fun htold => ?_⟩,
    ⟨by decide, by decide, fun htold => ?_⟩⟩
  · exact absurd (htold.none_iff.mpr (by decide)) (by decide)
  · exact absurd (htold.none_iff.mpr (by decide)) (by decide)

end UrlReservations
