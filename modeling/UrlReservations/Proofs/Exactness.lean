/-
A reservation is reported on exactly.

An inspection of a reservation says what there is to report about it on any session (`Inspection`).
What a session adds are the rows it refuses: the report that an entry is refused comes right after
what there is to report about the entry, and the one that the reservation is refused comes last.

When a row is refused is said here of the reservation and of the session the reading began on.  Up
to some point a reading has gone through (`Session.GoesThrough`) if there was no error before,
none was reported since, and the entries so far have distinct identifiers that were not in use.
As long as it has, each entry is stored, so the next one is refused exactly if with its identifier
the reading has not gone through any more.  What carries this through the children is that the
session a reading has reached knows no more than that (`Session.Reached`).
-/
import UrlReservations.Proofs.Inspection
import UrlReservations.Proofs.Refusals

namespace UrlReservations

open Xml (Element)

namespace Session

/--
A reading that began on a session, reported some diagnostics and came across entries of some
identifiers has gone through: there is no error, and each entry found its identifier unused.
-/
structure GoesThrough (s : Session) (diagnostics : List Diagnostic) (ids : List Identifier) :
    Prop where
  flag : s.encounteredError = false
  faultless : ∀ d ∈ diagnostics, d.isError = false
  distinct : ids.Nodup
  unused : ∀ id ∈ ids, id ∉ s.aces.keys

theorem goesThrough_iff (s : Session) (diagnostics : List Diagnostic) (ids : List Identifier) :
    (s.encounteredError = false ∧ (∀ d ∈ diagnostics, d.isError = false) ∧ ids.Nodup ∧
        ∀ id ∈ ids, id ∉ s.aces.keys) ↔
      s.GoesThrough diagnostics ids :=
  ⟨fun h => ⟨h.1, h.2.1, h.2.2.1, h.2.2.2⟩, fun h => ⟨h.flag, h.faultless, h.distinct, h.unused⟩⟩

instance (s : Session) (diagnostics : List Diagnostic) (ids : List Identifier) :
    Decidable (s.GoesThrough diagnostics ids) :=
  decidable_of_iff _ (s.goesThrough_iff diagnostics ids)

end Session

/-! ### What is reported, refusals included -/

namespace Xml.Element

/-- The identifiers of the access control entries among some children of a reservation. -/
def aceIds (element : Element) (owner : Owner) (children : List Element) : List Identifier :=
  (children.filter UrlReservation.isAce).map fun ace =>
    UrlAce.idOf ace (UrlReservation.idOf element owner) owner.principal?

/--
What is reported about a reservation until some children of it have been read, refusals apart.
-/
def reportsUpTo (element : Element) (owner : Owner) (children : List Element) : List Diagnostic :=
  element.attributeReports reservationRules ++
    children.flatMap (element.childReports owner.principal?)

end Xml.Element

namespace Session

variable (s : Session) (element : Element) (owner : Owner)

/--
The report that the row of a child is refused: the reading goes
through until the child offers its identifier.
-/
def aceRefusals (earlier : List Element) (child : Element) : List Diagnostic :=
  let reports := element.reportsUpTo owner (earlier ++ [child])
  if s.GoesThrough reports (element.aceIds owner earlier) ∧
      ¬ s.GoesThrough reports (element.aceIds owner (earlier ++ [child])) then
    [⟨child.pos, .duplicateSymbol "WixHttpUrlAce"
      (UrlAce.idOf child (UrlReservation.idOf element owner) owner.principal?).text⟩]
  else []

/--
The report that the reservation is refused: the reading goes through,
and its identifier is in use.
-/
def reservationRefusals : List Diagnostic :=
  let reports := element.reportsUpTo owner element.children ++ element.missingReports
  if s.GoesThrough reports (element.aceIds owner element.children) ∧
      UrlReservation.idOf element owner ∈ s.reservations.keys then
    [⟨element.pos,
      .duplicateSymbol "WixHttpUrlReservation" (UrlReservation.idOf element owner).text⟩]
  else []

/-- Everything a session reports when a reservation is read into it. -/
def reservationReports : List Diagnostic :=
  element.attributeReports reservationRules
    ++ saidInTurn (fun earlier child => element.childReports owner.principal? child
        ++ s.aceRefusals element owner earlier child) [] element.children
    ++ element.missingReports
    ++ s.reservationRefusals element owner

end Session

namespace Session

variable {s t : Session} {diagnostics : List Diagnostic} {ids : List Identifier}

/-! ### How far a reading goes through -/

theorem goesThrough_append_iff (reports : List Diagnostic) :
    s.GoesThrough (diagnostics ++ reports) ids ↔
      s.GoesThrough diagnostics ids ∧ ∀ d ∈ reports, d.isError = false := by
  simp only [← goesThrough_iff, List.forall_mem_append]
  tauto

theorem goesThrough_concat_iff (id : Identifier) :
    s.GoesThrough diagnostics (ids ++ [id]) ↔
      s.GoesThrough diagnostics ids ∧ id ∉ s.aces.keys ∧ id ∉ ids := by
  simp only [← goesThrough_iff, List.forall_mem_append, List.nodup_append, List.nodup_singleton,
    List.mem_singleton, forall_eq]
  grind

/-- A reading does not go through an error. -/
theorem not_goesThrough_of_error {d : Diagnostic} (hd : d ∈ diagnostics)
    (herror : d.isError = true) : ¬ s.GoesThrough diagnostics ids := by
  intro hthrough
  rw [hthrough.faultless d hd] at herror
  exact Bool.false_ne_true herror

/--
A reading that began on one session has reached another: the flag says whether it has gone through,
the identifiers in use are those there were and those that came since, and no reservation was added.
-/
structure Reached (s t : Session) (diagnostics : List Diagnostic) (ids : List Identifier) :
    Prop where
  noError_iff : t.encounteredError = false ↔ s.GoesThrough diagnostics ids
  mem_keys_iff : s.GoesThrough diagnostics ids →
    ∀ id, id ∈ t.aces.keys ↔ id ∈ s.aces.keys ∨ id ∈ ids
  reservations : t.reservations = s.reservations

namespace Reached

theorem refl (s : Session) : Reached s s [] [] := by
  refine ⟨?_, ?_, rfl⟩
  · simp [← goesThrough_iff]
  · simp

/-- Remarks are reported, and that is all. -/
theorem remarks (h : Reached s t diagnostics ids) {actions : List Action}
    (hactions : ∀ action ∈ actions, action.isRemark = true) {reports : List Diagnostic}
    (hreports : actions.filterMap Action.diagnostic? = reports) :
    (t.perform .strict actions).diagnostics = t.diagnostics ++ reports ∧
      Reached s (t.perform .strict actions) (diagnostics ++ reports) ids := by
  rw [perform_of_remarks .strict t hactions, hreports]
  refine ⟨rfl, ?_, ?_, h.reservations⟩
  · rw [goesThrough_append_iff, ← h.noError_iff]
    simp
  · intro hthrough
    exact h.mem_keys_iff ((goesThrough_append_iff reports).mp hthrough).1

/-- After an error it does not matter any more which entries come. -/
theorem of_error (h : Reached s t diagnostics ids) {d : Diagnostic} (hd : d ∈ diagnostics)
    (herror : d.isError = true) (ids' : List Identifier) : Reached s t diagnostics ids' := by
  have hnever : ¬ s.GoesThrough diagnostics ids' := not_goesThrough_of_error hd herror
  refine ⟨?_, fun hthrough => absurd hthrough hnever, h.reservations⟩
  rw [h.noError_iff]
  exact iff_of_false (not_goesThrough_of_error hd herror) hnever

/--
With one more entry a reading has gone through if it had, and the
identifier is not in use where it has got to.
-/
theorem goesThrough_concat (h : Reached s t diagnostics ids) (id : Identifier) :
    s.GoesThrough diagnostics (ids ++ [id]) ↔ t.encounteredError = false ∧ id ∉ t.aces.keys := by
  rw [goesThrough_concat_iff, h.noError_iff]
  refine and_congr_right fun hthrough => ?_
  rw [h.mem_keys_iff hthrough, not_or]

/-- An entry is stored, refused, or held back. -/
theorem emitAce (h : Reached s t diagnostics ids) (pos : Position) (row : UrlAce) :
    (t.act .strict (.emitAce pos row)).diagnostics = t.diagnostics ++
        (if s.GoesThrough diagnostics ids ∧ ¬ s.GoesThrough diagnostics (ids ++ [row.id]) then
          [⟨pos, .duplicateSymbol "WixHttpUrlAce" row.id.text⟩] else []) ∧
      Reached s (t.act .strict (.emitAce pos row)) diagnostics (ids ++ [row.id]) := by
  have hnext := h.goesThrough_concat row.id
  by_cases hthrough : s.GoesThrough diagnostics ids
  · have hopen : t.encounteredError = false := h.noError_iff.mpr hthrough
    rw [act, if_pos (gateOpen_of_noError .strict hopen)]
    by_cases hused : row.id ∈ t.aces.keys
    · -- refused, so there is an error now
      have hstopped : ¬ s.GoesThrough diagnostics (ids ++ [row.id]) :=
        fun hstill => (hnext.mp hstill).2 hused
      rw [addAce_of_mem hused, if_pos ⟨hthrough, hstopped⟩]
      refine ⟨rfl, iff_of_false ?_ hstopped, fun hstill => absurd hstill hstopped, h.reservations⟩
      rw [report_encounteredError, Diagnostic.isError_mk]
      simp [Message.isError, Message.severity]
    · -- stored, so its identifier is in use now
      have hstill : s.GoesThrough diagnostics (ids ++ [row.id]) := hnext.mpr ⟨hopen, hused⟩
      rw [addAce_of_notMem hused, if_neg fun hstop => hstop.2 hstill]
      refine ⟨(List.append_nil _).symm, iff_of_true hopen hstill, fun _ id => ?_, h.reservations⟩
      have hkeys := h.mem_keys_iff hthrough id
      rw [Table.keys] at hkeys
      rw [Table.keys, List.map_append, List.mem_append, hkeys, List.mem_append, or_assoc]
      rfl
  · -- held back, as there was an error before
    have herror : ¬ t.encounteredError = false := fun hopen => hthrough (h.noError_iff.mp hopen)
    have hstopped : ¬ s.GoesThrough diagnostics (ids ++ [row.id]) :=
      fun hstill => herror (hnext.mp hstill).1
    have hclosed : ¬ t.gateOpen .strict = true := by
      rw [Bool.not_eq_false] at herror
      simp [gateOpen, herror]
    rw [act, if_neg hclosed, if_neg fun hstop => hthrough hstop.1]
    exact ⟨(List.append_nil _).symm, iff_of_false herror hstopped,
      fun hstill => absurd hstill hstopped, h.reservations⟩

end Reached

/-! ### The children of a reservation -/

variable {element : Element} {owner : Owner} {earlier : List Element}

theorem aceIds_concat (element : Element) (owner : Owner) (earlier : List Element)
    (child : Element) :
    element.aceIds owner (earlier ++ [child]) = element.aceIds owner earlier ++
      if UrlReservation.isAce child then
        [UrlAce.idOf child (UrlReservation.idOf element owner) owner.principal?] else [] := by
  rw [Element.aceIds, List.filter_append, List.map_append, Element.aceIds]
  cases hace : UrlReservation.isAce child <;> simp [hace]

theorem reportsUpTo_concat (element : Element) (owner : Owner) (earlier : List Element)
    (child : Element) :
    element.reportsUpTo owner (earlier ++ [child])
      = element.reportsUpTo owner earlier ++ element.childReports owner.principal? child := by
  rw [Element.reportsUpTo, List.flatMap_append, List.flatMap_singleton, ← List.append_assoc,
    Element.reportsUpTo]

/-- A child that is no entry cannot be refused, and one about which there is an error is not. -/
theorem aceRefusals_eq_nil {child : Element} (h : UrlReservation.isAce child = false ∨
    ∃ d ∈ element.childReports owner.principal? child, d.isError = true) :
    s.aceRefusals element owner earlier child = [] := by
  rw [aceRefusals, if_neg]
  rintro ⟨hthrough, hstopped⟩
  rcases h with hace | ⟨d, hd, herror⟩
  · rw [aceIds_concat, hace] at hstopped
    exact hstopped (by simpa using hthrough)
  · rw [reportsUpTo_concat] at hthrough
    exact not_goesThrough_of_error (List.mem_append_right _ hd) herror hthrough

/--
An access control entry offers its row unless it has no principal, and then it is reported on.
-/
theorem ace_row_cases (ace : Element) (reservationId : Identifier) (ambient? : Option String) :
    (∃ row, (UrlAce.read ace reservationId ambient?).row? = some row ∧
      row.id = UrlAce.idOf ace reservationId ambient?) ∨
    (UrlAce.read ace reservationId ambient?).row? = none ∧
      ∃ d ∈ ace.aceReports ambient?, d.isError = true := by
  have hrow : (UrlAce.read ace reservationId ambient?).row?
      = (UrlAce.principal? ace ambient?).map fun principal =>
      ⟨UrlAce.idOf ace reservationId ambient?, reservationId, principal, UrlAce.rightsOf ace⟩ := rfl
  rw [hrow]
  cases hprincipal : UrlAce.principal? ace ambient? with
  | some principal => exact .inl ⟨_, rfl, rfl⟩
  | none =>
    have hmissing := (UrlAce.principal?_eq_none_iff ace ambient?).mp hprincipal
    refine .inr ⟨rfl, ⟨ace.pos, .expectedAttribute "UrlAce" "SecurityPrincipal"⟩, ?_, rfl⟩
    simp [Element.aceReports, hmissing]

/--
What a child asks for: an entry that is read and has a principal asks for its row in the
end.  Anything else asks for remarks only, and if it is an entry, it is reported on.
-/
theorem childActions_cases (element : Element) (owner : Owner) (child : Element) :
    (∃ remarks row,
      UrlReservation.childActions element owner child = remarks ++ [.emitAce child.pos row] ∧
      (∀ action ∈ remarks, action.isRemark = true) ∧ UrlReservation.isAce child = true ∧
      row.id = UrlAce.idOf child (UrlReservation.idOf element owner) owner.principal?) ∨
    (∀ action ∈ UrlReservation.childActions element owner child, action.isRemark = true) ∧
      (UrlReservation.isAce child = false ∨
        ∃ d ∈ element.childReports owner.principal? child, d.isError = true) := by
  have hsddl := UrlReservation.sddlOf?_eq element
  by_cases hhttp : child.isHttp = true
  · by_cases hname : child.name = "UrlAce"
    · have hace : UrlReservation.isAce child = true :=
        (UrlReservation.isAce_iff child).mpr ⟨hhttp, hname⟩
      cases hgiven : element.given? "Sddl" with
      | some sddl =>
        refine .inr ?_
        simp [UrlReservation.childActions, Element.childReports, hhttp, hname, hsddl, hgiven,
          Vocabulary.urlAce, Message.isError, Message.severity]
      | none =>
        have hactions : UrlReservation.childActions element owner child
            = UrlAce.actions child (UrlReservation.idOf element owner) owner.principal? := by
          simp [UrlReservation.childActions, hhttp, hname, hsddl, hgiven, Vocabulary.urlAce]
        have hreports : element.childReports owner.principal? child
            = child.aceReports owner.principal? := by
          simp [Element.childReports, hhttp, hname, hgiven]
        have hremarks :=
          UrlAce.isRemark_of_mem_read child (UrlReservation.idOf element owner) owner.principal?
        rw [hactions, hreports, UrlAce.actions, Reading.allActions]
        rcases ace_row_cases child (UrlReservation.idOf element owner) owner.principal?
          with ⟨row, hrow, hid⟩ | ⟨hrow, herror⟩
        · rw [hrow]
          exact .inl ⟨_, row, rfl, hremarks, hace, hid⟩
        · rw [hrow]
          exact .inr ⟨by simpa using hremarks, .inr herror⟩
    · refine .inr ?_
      simp [UrlReservation.childActions, UrlReservation.isAce, hhttp, hname, Vocabulary.urlAce]
  · refine .inr ?_
    simp [UrlReservation.childActions, UrlReservation.isAce, hhttp]

/-- Reading the attributes reports on them, and no child has been read by then. -/
theorem Reached.attributes (s : Session) (element : Element) (owner : Owner) :
    let t := s.perform .strict
      (element.visitAttributes fun kind v => (ReservationAttribute.faults kind v).map .report)
    t.diagnostics = s.diagnostics ++ element.attributeReports reservationRules ∧
      Reached s t (element.reportsUpTo owner []) (element.aceIds owner []) := by
  obtain ⟨hfirst, hreached⟩ := (Reached.refl s).remarks
    (element.isRemark_of_mem_visitAttributes ReservationAttribute.faults)
    (diagnostics_visitAttributes ReservationAttribute.judged element)
  exact ⟨hfirst, by simpa [Element.reportsUpTo, Element.aceIds] using hreached⟩

/--
Reading a child reports what there is to report about it, and then whether its row is refused.
-/
theorem Reached.child
    (h : Reached s t (element.reportsUpTo owner earlier) (element.aceIds owner earlier))
    (child : Element) :
    (t.perform .strict (UrlReservation.childActions element owner child)).diagnostics
        = t.diagnostics ++ (element.childReports owner.principal? child ++
          s.aceRefusals element owner earlier child) ∧
      Reached s (t.perform .strict (UrlReservation.childActions element owner child))
        (element.reportsUpTo owner (earlier ++ [child]))
        (element.aceIds owner (earlier ++ [child])) := by
  have hreports := UrlReservation.diagnostics_childActions element child owner
  rcases childActions_cases element owner child
    with ⟨remarks, row, hactions, hremarks, hace, hid⟩ | ⟨hremarks, hcase⟩
  · rw [hactions] at hreports ⊢
    rw [List.filterMap_append] at hreports
    obtain ⟨hfirst, hreached⟩ := h.remarks hremarks (hreports ▸ (List.append_nil _).symm)
    obtain ⟨hthen, hreached⟩ := hreached.emitAce child.pos row
    rw [← reportsUpTo_concat, hid] at hthen hreached
    rw [perform_append, aceIds_concat, hace, if_pos rfl]
    refine ⟨?_, hreached⟩
    rw [perform_cons, perform_nil, hthen, hfirst, List.append_assoc, aceRefusals, aceIds_concat,
      hace, if_pos rfl]
  · obtain ⟨hfirst, hreached⟩ := h.remarks hremarks hreports
    rw [aceRefusals_eq_nil hcase, List.append_nil]
    rw [← reportsUpTo_concat] at hreached
    refine ⟨hfirst, ?_⟩
    rcases hcase with hace | ⟨d, hd, herror⟩
    · rw [aceIds_concat, hace]
      simpa using hreached
    · exact hreached.of_error (by rw [reportsUpTo_concat]; exact List.mem_append_right _ hd)
        herror _

/-- So does reading the children in turn. -/
theorem Reached.children
    (h : Reached s t (element.reportsUpTo owner earlier) (element.aceIds owner earlier))
    (children : List Element) :
    (t.perform .strict (children.flatMap (UrlReservation.childActions element owner))).diagnostics
        = t.diagnostics ++ saidInTurn
            (fun earlier child => element.childReports owner.principal? child
              ++ s.aceRefusals element owner earlier child)
            earlier children ∧
      Reached s (t.perform .strict (children.flatMap (UrlReservation.childActions element owner)))
        (element.reportsUpTo owner (earlier ++ children))
        (element.aceIds owner (earlier ++ children)) := by
  induction children generalizing t earlier with
  | nil =>
    rw [List.append_nil, List.flatMap_nil, perform_nil]
    exact ⟨(List.append_nil _).symm, h⟩
  | cons child rest ih =>
    obtain ⟨hfirst, hreached⟩ := h.child child
    obtain ⟨hrest, hreached⟩ := ih hreached
    rw [List.flatMap_cons, perform_append, hrest, hfirst, saidInTurn, List.append_assoc]
    rw [List.append_assoc, List.singleton_append] at hreached
    exact ⟨rfl, hreached⟩

/-! ### The whole reservation -/

/-- A reservation offers its row unless it has no URL, and then it is reported on. -/
theorem reservation_row_cases (element : Element) (owner : Owner) :
    (∃ row, (UrlReservation.read element owner).row? = some row ∧
      row.id = UrlReservation.idOf element owner) ∨
    (UrlReservation.read element owner).row? = none ∧
      ∃ d ∈ element.missingReports, d.isError = true := by
  have hrow : (UrlReservation.read element owner).row? = (element.given? "Url").map fun url =>
      ⟨UrlReservation.idOf element owner, UrlReservation.handleExistingOf element,
        UrlReservation.sddlOf? element, url, owner.componentId⟩ := by
    rw [← UrlReservation.urlOf?_eq]
    rfl
  rw [hrow]
  cases hgiven : element.given? "Url" with
  | some url => exact .inl ⟨_, rfl, rfl⟩
  | none =>
    refine .inr ⟨rfl, ⟨element.pos, .expectedAttribute "UrlReservation" "Url"⟩, ?_, rfl⟩
    simp [Element.missingReports, hgiven]

/--
Before its row, reading a reservation reports on its attributes, then
on its children, then on what is missing.
-/
theorem Reached.row (s : Session) (element : Element) (owner : Owner) :
    (s.perform .strict (UrlReservation.read element owner).actions).diagnostics
        = s.diagnostics ++ (element.attributeReports reservationRules
          ++ saidInTurn (fun earlier child => element.childReports owner.principal? child
              ++ s.aceRefusals element owner earlier child) [] element.children
          ++ element.missingReports) ∧
      Reached s (s.perform .strict (UrlReservation.read element owner).actions)
        (element.reportsUpTo owner element.children ++ element.missingReports)
        (element.aceIds owner element.children) := by
  have hactions : (UrlReservation.read element owner).actions
      = element.visitAttributes (fun kind v => (ReservationAttribute.faults kind v).map .report)
        ++ element.children.flatMap (UrlReservation.childActions element owner)
        ++ (UrlReservation.closingFaults element).map .report := rfl
  have hclosing : ∀ action ∈ (UrlReservation.closingFaults element).map Action.report,
      action.isRemark = true := by
    intro action haction
    obtain ⟨d, -, rfl⟩ := List.mem_map.mp haction
    rfl
  have hmissing :
      ((UrlReservation.closingFaults element).map Action.report).filterMap Action.diagnostic?
        = element.missingReports := by
    rw [diagnostics_reports, UrlReservation.closingFaults_eq]
  obtain ⟨hfirst, hreached⟩ := Reached.attributes s element owner
  obtain ⟨hthen, hreached⟩ := hreached.children element.children
  obtain ⟨hlast, hreached⟩ := hreached.remarks hclosing hmissing
  rw [hactions, perform_append, perform_append]
  refine ⟨?_, by simpa only [List.nil_append] using hreached⟩
  rw [hlast, hthen, hfirst, List.append_assoc, List.append_assoc, List.append_assoc]

/-- The reservation is stored, refused, or held back. -/
theorem Reached.emitReservation (h : Reached s t diagnostics ids) (pos : Position)
    (row : UrlReservation) :
    (t.act .strict (.emitReservation pos row)).diagnostics = t.diagnostics ++
      (if s.GoesThrough diagnostics ids ∧ row.id ∈ s.reservations.keys then
        [⟨pos, .duplicateSymbol "WixHttpUrlReservation" row.id.text⟩] else []) := by
  have hrefusal : t.refusal? .strict (.emitReservation pos row)
      = if s.GoesThrough diagnostics ids ∧ row.id ∈ s.reservations.keys then
          some ⟨pos, .duplicateSymbol "WixHttpUrlReservation" row.id.text⟩ else none := by
    simp only [refusal?, refuseReservation?, h.reservations, gateOpen, Bool.not_eq_true',
      h.noError_iff, ite_and]
    rfl
  rw [act_diagnostics, hrefusal]
  split <;> rfl

/-- A reservation that misses something is not refused. -/
theorem reservationRefusals_eq_nil (h : ∃ d ∈ element.missingReports, d.isError = true) :
    s.reservationRefusals element owner = [] := by
  obtain ⟨d, hd, herror⟩ := h
  rw [reservationRefusals, if_neg]
  rintro ⟨hthrough, -⟩
  exact not_goesThrough_of_error (List.mem_append_right _ hd) herror hthrough

end Session

/--
**A reservation is reported on exactly.**

Reading a reservation into a session, whatever there was before, adds to the diagnostics what
there is to report about its attributes in order, about its children in order, and about what is
missing, and nothing else but refusals.  There is at most one for each entry, right after what is
reported about that entry, and at most one for the reservation, at the end; and it is made exactly
if reading has gone through without an error so far and finds the identifier in use.
-/
theorem reservation_reported_exactly (s : Session) (element : Element) (owner : Owner) :
    (s.readReservation .strict element owner).1.diagnostics
      = s.diagnostics ++ s.reservationReports element owner := by
  obtain ⟨hreports, hreached⟩ := Session.Reached.row s element owner
  rw [Session.readReservation, Session.settle_fst, Reading.allActions, Session.perform_append,
    Session.reservationReports]
  rcases Session.reservation_row_cases element owner with ⟨row, hrow, hid⟩ | ⟨hrow, hmissing⟩
  · have hemit := hreached.emitReservation element.pos row
    rw [hid] at hemit
    rw [hrow, Option.toList_some, List.map_singleton, Session.perform_cons, Session.perform_nil,
      hemit, hreports, List.append_assoc, Session.reservationRefusals]
  · rw [Session.reservationRefusals_eq_nil hmissing, List.append_nil, hrow, Option.toList_none,
      List.map_nil, Session.perform_nil, hreports]

-- A repetition is reported whatever the first value was, but an empty
-- descriptor is none, so the entries are inspected.
example :
    let own name value column : Xml.Attribute := ⟨none, name, value, ⟨1, column⟩⟩
    let http name attributes pos : Xml.Tag := ⟨some Vocabulary.httpNamespace, name, attributes, pos⟩
    let attributes :=
      [own "Sddl" "" 16, own "Sddl" "D:" 24, own "Id" "R" 33, own "Url" "http://+:80/" 40]
    let entries :=
      [.element (http "UrlAce" [own "Id" "A" 9] ⟨2, 3⟩) [], .element (http "UrlAcl" [] ⟨3, 3⟩) []]
    let element : Element := ⟨http "UrlReservation" attributes ⟨1, 1⟩, entries⟩
    (Session.start .x86).reservationReports element ⟨"C", none⟩
      = [⟨⟨1, 16⟩, .illegalEmptyAttributeValue "UrlReservation" "Sddl"⟩,
        ⟨⟨1, 24⟩, .duplicateAttribute "UrlReservation" "Sddl"⟩,
        ⟨⟨2, 3⟩, .expectedAttribute "UrlAce" "SecurityPrincipal"⟩,
        ⟨⟨3, 3⟩, .unexpectedElement "UrlReservation" "UrlAcl"⟩] := by
  decide

end UrlReservations
