/-
The compiler accepts exactly the grammar.

Reading an element reports no error exactly if the element follows the grammar, first for
access control entries, then for reservations, then for entries wherever they stand.  An
element that follows the grammar offers exactly the rows it stands for.  With both, a clean
run over a whole document comes down to its two halves: every entry follows the grammar, and
no two rows of a table have one identifier.

The grammar is the one the compiler reads, in which an attribute of another extension can give a
service its name and a component its identifier.  A document that shows the difference stands
at the end.
-/
import UrlReservations.Proofs.Owner

namespace UrlReservations

open Xml (Element Place Document)

/-! ### Access control entries -/

namespace UrlAce

theorem principal?_eq {ace : Element} {names : List String} (h : ace.WellAuthored names)
    (ambient? : Option String) :
    principal? ace ambient? = (ace.own? "SecurityPrincipal").or ambient? := by
  rw [principal?, ace.authored?_eq_own? h.nonempty]
  rfl

theorem faultless_childActions_iff (ace child : Element) :
    Action.Faultless (childActions ace child) ↔ child.isHttp = false := by
  unfold childActions
  by_cases hhttp : child.isHttp = true
  · rw [if_pos hhttp, Action.faultless_report, hhttp]
    exact Iff.rfl
  · rw [if_neg hhttp, Bool.not_eq_true] at *
    simpa using hhttp

theorem isRemark_of_mem_childActions {ace child : Element} :
    ∀ action ∈ childActions ace child, action.isRemark = true := by
  intro action haction
  unfold childActions at haction
  split at haction <;> (rw [List.mem_singleton.mp haction]; rfl)

theorem isRemark_of_mem_read (ace : Element) (reservationId : Identifier)
    (ambient? : Option String) :
    ∀ action ∈ (read ace reservationId ambient?).actions, action.isRemark = true := by
  intro action haction
  simp only [read, List.mem_append] at haction
  rcases haction with (haction | haction) | haction
  · exact ace.isRemark_of_mem_visitAttributes AceAttribute.faults action haction
  · obtain ⟨child, -, haction⟩ := List.mem_flatMap.mp haction
    exact isRemark_of_mem_childActions action haction
  · obtain ⟨d, -, rfl⟩ := List.mem_map.mp haction
    rfl

/-- An entry offers its row to the entry table, and none to the other. -/
theorem rows_actions (ace : Element) (reservationId : Identifier) (ambient? : Option String) :
    (actions ace reservationId ambient?).filterMap Action.reservation? = [] ∧
      (actions ace reservationId ambient?).filterMap Action.ace?
        = (read ace reservationId ambient?).row?.toList := by
  obtain ⟨hreservations, haces⟩ :=
    Action.rows_of_remarks (isRemark_of_mem_read ace reservationId ambient?)
  rw [actions, Reading.allActions, List.filterMap_append, List.filterMap_append, hreservations,
    haces]
  cases (read ace reservationId ambient?).row? <;> simp

/--
**Reading an access control entry reports no error exactly if the entry follows the grammar.**
-/
theorem faultless_actions_iff (ace : Element) (reservationId : Identifier)
    (ambient? : Option String) :
    Action.Faultless (actions ace reservationId ambient?) ↔ ace.WellFormedAce ambient? := by
  have hrow : Action.Faultless ((read ace reservationId ambient?).row?.toList.map
      (.emitAce ace.pos)) := by
    cases (read ace reservationId ambient?).row? <;> simp [Action.Faultless]
  have hclosing : Action.Faultless ((closingFaults ace ambient?).map .report) ↔
      (principal? ace ambient?).isSome = true := by
    rw [closingFaults]
    cases principal? ace ambient? <;>
      simp [Action.faultless_report, Message.isError, Message.severity]
  rw [actions, Reading.allActions, read, Action.faultless_append, Action.faultless_append,
    Action.faultless_append, AceAttribute.faultless_iff, Action.faultless_flatMap, hclosing]
  simp only [faultless_childActions_iff]
  refine ⟨?_, ?_⟩
  · intro h
    obtain ⟨⟨⟨⟨hauthored, hid, hrights⟩, hchildren⟩, hprincipal⟩, -⟩ := h
    rw [principal?_eq hauthored, Option.isSome_or, Bool.or_eq_true] at hprincipal
    exact ⟨hauthored, hid, hrights, hprincipal, hchildren⟩
  · intro h
    refine ⟨⟨⟨⟨h.toWellAuthored, h.id, h.rights⟩, h.children⟩, ?_⟩, hrow⟩
    rw [principal?_eq h.toWellAuthored, Option.isSome_or, Bool.or_eq_true]
    exact h.principal

/-- The row an entry that follows the grammar would emit is the one it stands for. -/
theorem row?_eq {ace : Element} {ambient? : Option String} (h : ace.WellFormedAce ambient?)
    (reservationId : Identifier) :
    (read ace reservationId ambient?).row? = ace.aceRow? reservationId ambient? ∧
      (ace.aceRow? reservationId ambient?).isSome = true := by
  obtain ⟨principal, hprincipal⟩ : ∃ principal,
      (ace.own? "SecurityPrincipal").or ambient? = some principal := by
    rw [← Option.isSome_iff_exists, Option.isSome_or, Bool.or_eq_true]
    exact h.principal
  have hid : ace.authored? AceAttribute.id = ace.own? "Id" := ace.authored?_eq_own? h.nonempty _
  have htoken : ace.authored? AceAttribute.rights = ace.own? "Rights" :=
    ace.authored?_eq_own? h.nonempty _
  have hrights : (ace.own? "Rights").elim (some Rights.all) Choice.ofToken?
      = some (rightsOf ace) := by
    rw [Choice.elim_ofToken? Rights.all h.rights, rightsOf, htoken]
    rfl
  have hidOf : idOf ace reservationId ambient? = (ace.own? "Id").elim
      (.derive .urlAce [some reservationId.text, some principal, ace.own? "Rights"])
      Identifier.mk := by
    rw [idOf, hid, principal?_eq h.toWellAuthored, hprincipal, htoken]
    cases ace.own? "Id" <;> rfl
  have hrow : ace.aceRow? reservationId ambient?
      = some ⟨idOf ace reservationId ambient?, reservationId, principal, rightsOf ace⟩ := by
    rw [Element.aceRow?, hprincipal, hrights, hidOf]
    rfl
  refine ⟨?_, by rw [hrow]; rfl⟩
  rw [hrow, read, principal?_eq h.toWellAuthored, hprincipal]
  rfl

end UrlAce

/-! ### Reservations -/

namespace UrlReservation

/--
A child asks for no error exactly if it is foreign, or an entry that
follows the grammar where entries may stand.
-/
theorem faultless_childActions_iff (element child : Element) (owner : Owner) :
    Action.Faultless (childActions element owner child) ↔
      (child.isHttp = true → child.name = "UrlAce" ∧ sddlOf? element = none ∧
        child.WellFormedAce owner.principal?) := by
  unfold childActions
  by_cases hhttp : child.isHttp = true
  · by_cases hname : child.name = "UrlAce"
    · cases hsddl : sddlOf? element with
      | none => simp [hhttp, hname, Vocabulary.urlAce, UrlAce.faultless_actions_iff]
      | some sddl =>
        simp [hhttp, hname, Vocabulary.urlAce, Action.faultless_report, Message.isError,
          Message.severity]
    · simp [hhttp, hname, Vocabulary.urlAce, Action.faultless_report, Message.isError,
        Message.severity]
  · simp [hhttp]

theorem isAce_iff (child : Element) :
    isAce child = true ↔ child.isHttp = true ∧ child.name = "UrlAce" := by
  rw [isAce, Bool.and_eq_true, decide_eq_true_eq]
  rfl

theorem mem_aces_iff (element ace : Element) :
    ace ∈ element.aces ↔ ace ∈ element.children ∧ ace.isHttp = true ∧ ace.name = "UrlAce" := by
  rw [Element.aces, List.mem_filter, isAce_iff]

theorem aces_eq_nil_iff (element : Element) :
    element.aces = [] ↔ element.children.any isAce = false := by
  rw [Element.aces, List.filter_eq_nil_iff, List.any_eq_false]

theorem faultless_closingFaults_iff (element : Element) :
    Action.Faultless ((closingFaults element).map .report) ↔
      (urlOf? element).isSome = true ∧ isUnsecured element = false := by
  rw [Action.faultless_reports, closingFaults]
  cases urlOf? element <;> cases isUnsecured element <;> simp [Message.isError, Message.severity]

/-- **Reading a reservation reports no error exactly if the reservation follows the grammar.** -/
theorem faultless_actions_iff (element : Element) (owner : Owner) :
    Action.Faultless (actions element owner) ↔ element.WellFormedReservation owner.principal? := by
  have hrow : Action.Faultless
      ((read element owner).row?.toList.map (.emitReservation element.pos)) := by
    cases (read element owner).row? <;> simp [Action.Faultless]
  rw [actions, Reading.allActions, read, Action.faultless_append, Action.faultless_append,
    Action.faultless_append, ReservationAttribute.faultless_iff, Action.faultless_flatMap,
    faultless_closingFaults_iff]
  simp only [faultless_childActions_iff]
  refine ⟨?_, ?_⟩
  · intro h
    obtain ⟨⟨⟨⟨hauthored, hid, hhandling⟩, hchildren⟩, hurl, hsecured⟩, -⟩ := h
    have hsddl : sddlOf? element = element.own? "Sddl" :=
      element.authored?_eq_own? hauthored.nonempty _
    rw [urlOf?, element.authored?_eq_own? hauthored.nonempty] at hurl
    refine ⟨hauthored, hurl, hid, hhandling, ?_, ?_, ?_⟩
    · intro child hchild hhttp
      exact (hchildren child hchild hhttp).1
    · rw [isUnsecured, ← hsddl] at *
      refine ⟨?_, ?_⟩
      · intro hsome
        rw [List.eq_nil_iff_forall_not_mem]
        intro ace hace
        obtain ⟨hchild, hhttp, -⟩ := (mem_aces_iff element ace).mp hace
        rw [(hchildren ace hchild hhttp).2.1] at hsome
        simp at hsome
      · intro hnil
        rw [aces_eq_nil_iff] at hnil
        rw [hnil] at hsecured
        simpa using hsecured
    · intro ace hace
      obtain ⟨hchild, hhttp, -⟩ := (mem_aces_iff element ace).mp hace
      exact (hchildren ace hchild hhttp).2.2
  · intro h
    have hsddl : sddlOf? element = element.own? "Sddl" := element.authored?_eq_own? h.nonempty _
    refine ⟨⟨⟨⟨h.toWellAuthored, h.id, h.handleExisting⟩, ?_⟩, ?_, ?_⟩, hrow⟩
    · intro child hchild hhttp
      have hname := h.children child hchild hhttp
      have hace := (mem_aces_iff element child).mpr ⟨hchild, hhttp, hname⟩
      refine ⟨hname, ?_, h.aces child hace⟩
      rw [hsddl, ← Option.not_isSome_iff_eq_none, h.secured]
      exact List.ne_nil_of_mem hace
    · rw [urlOf?, element.authored?_eq_own? h.nonempty]
      exact h.url
    · rw [isUnsecured, hsddl]
      by_cases hnil : element.aces = []
      · obtain ⟨sddl, hsome⟩ := Option.isSome_iff_exists.mp (h.secured.mpr hnil)
        rw [hsome]
        rfl
      · rw [aces_eq_nil_iff, Bool.not_eq_false] at hnil
        rw [hnil]
        exact Bool.and_false _

/-! ### The rows of a reservation -/

theorem reservations_childActions (element child : Element) (owner : Owner) :
    (childActions element owner child).filterMap Action.reservation? = [] := by
  unfold childActions
  split
  · rfl
  · split
    · rfl
    · split
      · rfl
      · exact (UrlAce.rows_actions ..).1

/--
What a reservation asks for about its children offers the rows of its
entries, unless there is a descriptor.
-/
theorem aces_childActions (element child : Element) (owner : Owner) :
    (childActions element owner child).filterMap Action.ace? =
      if isAce child && (sddlOf? element).isNone then
        (UrlAce.read child (idOf element owner) owner.principal?).row?.toList
      else [] := by
  unfold childActions
  by_cases hhttp : child.isHttp = true
  · by_cases hname : child.name = Vocabulary.urlAce
    · cases hsddl : sddlOf? element with
      | none => simpa [isAce, hhttp, hname] using (UrlAce.rows_actions ..).2
      | some sddl => simp [isAce, hhttp, hname]
    · simp [isAce, hhttp, hname]
  · simp [isAce, hhttp, Action.forwardElement, Action.ace?]

/-- A reservation offers none before its own. -/
theorem reservations_read (element : Element) (owner : Owner) :
    (read element owner).actions.filterMap Action.reservation? = [] := by
  obtain ⟨hvisit, -⟩ :=
    Action.rows_of_remarks (element.isRemark_of_mem_visitAttributes ReservationAttribute.faults)
  have hclosing : ((closingFaults element).map Action.report).filterMap Action.reservation?
      = [] := by
    simp [List.filterMap_eq_nil_iff]
  rw [read, List.filterMap_append, List.filterMap_append, hvisit, hclosing, List.filterMap_flatMap]
  simp [reservations_childActions]

theorem reservations_actions (element : Element) (owner : Owner) :
    (actions element owner).filterMap Action.reservation? = (read element owner).row?.toList := by
  rw [actions, Reading.allActions, List.filterMap_append, reservations_read]
  cases (read element owner).row? <;> simp

theorem flatMap_ite {α β : Type} (p : α → Bool) (f : α → List β) (l : List α) :
    (l.flatMap fun a => if p a = true then f a else []) = (l.filter p).flatMap f := by
  induction l with
  | nil => rfl
  | cons a rest ih =>
    by_cases ha : p a = true
    · rw [List.flatMap_cons, if_pos ha, List.filter_cons_of_pos ha, List.flatMap_cons, ih]
    · rw [List.flatMap_cons, if_neg ha, List.filter_cons_of_neg ha, List.nil_append, ih]

theorem aces_actions (element : Element) (owner : Owner) :
    (actions element owner).filterMap Action.ace? =
      if (sddlOf? element).isNone then
        element.aces.flatMap fun ace =>
          (UrlAce.read ace (idOf element owner) owner.principal?).row?.toList
      else [] := by
  obtain ⟨-, hvisit⟩ :=
    Action.rows_of_remarks (element.isRemark_of_mem_visitAttributes ReservationAttribute.faults)
  have hclosing : ((closingFaults element).map Action.report).filterMap Action.ace? = [] := by
    simp [List.filterMap_eq_nil_iff]
  have hrow : ((read element owner).row?.toList.map (Action.emitReservation element.pos)).filterMap
      Action.ace? = [] := by
    cases (read element owner).row? <;> simp
  rw [actions, Reading.allActions, List.filterMap_append, hrow, List.append_nil, read,
    List.filterMap_append, List.filterMap_append, hvisit, hclosing, List.filterMap_flatMap,
    List.nil_append, List.append_nil]
  simp only [aces_childActions, Element.aces]
  cases sddlOf? element with
  | none =>
    simp only [Option.isNone_none, Bool.and_true, if_true]
    exact flatMap_ite isAce _ element.children
  | some sddl => simp

end UrlReservation

/-! ### Lists of optional values -/

/-- A list of optional values that are all there is the list of the values. -/
theorem mapM_eq_some_iff {α β : Type} (f : α → Option β) (l : List α) (rows : List β) :
    l.mapM f = some rows ↔ l.map f = rows.map some := by
  induction l generalizing rows with
  | nil => cases rows <;> simp
  | cons a rest ih =>
    rw [List.mapM_cons, List.map_cons, Option.bind_eq_bind, Option.bind_eq_some_iff]
    simp only [Option.bind_eq_bind, Option.bind_eq_some_iff, ih, Option.pure_def, Option.some.injEq]
    refine ⟨?_, ?_⟩
    · intro h
      obtain ⟨row, hrow, others, hothers, hrows⟩ := h
      rw [hrow, hothers, ← hrows, List.map_cons]
    · intro h
      obtain ⟨row, others, hrows, hrow, hothers⟩ := List.map_eq_cons_iff.mp h.symm
      exact ⟨row, hrow.symm, others, hothers.symm, hrows.symm⟩

theorem filterMap_of_mapM {α β : Type} {f : α → Option β} {l : List α} {rows : List β}
    (h : l.mapM f = some rows) : l.filterMap f = rows := by
  have hmap := congrArg (List.filterMap id) ((mapM_eq_some_iff f l rows).mp h)
  rw [List.filterMap_map, List.filterMap_map] at hmap
  exact hmap.trans List.filterMap_some

theorem mapM_of_isSome {α β : Type} {f : α → Option β} {l : List α}
    (h : ∀ a ∈ l, (f a).isSome = true) : l.mapM f = some (l.filterMap f) := by
  rw [mapM_eq_some_iff]
  induction l with
  | nil => rfl
  | cons a rest ih =>
    rw [List.forall_mem_cons] at h
    obtain ⟨row, hrow⟩ := Option.isSome_iff_exists.mp h.1
    rw [List.map_cons, ih h.2, List.filterMap_cons_some hrow, List.map_cons, hrow]

/-- Where all values are there, each element has one of the rows, and each row is of an element. -/
theorem exists_of_map_eq_map_some {α β : Type} {f : α → Option β} {l : List α} {rows : List β}
    (h : l.map f = rows.map some) :
    (∀ a ∈ l, ∃ row ∈ rows, f a = some row) ∧ ∀ row ∈ rows, ∃ a ∈ l, f a = some row := by
  refine ⟨?_, ?_⟩
  · intro a ha
    have hmem : f a ∈ rows.map some := h ▸ List.mem_map_of_mem ha
    obtain ⟨row, hrow, heq⟩ := List.mem_map.mp hmem
    exact ⟨row, hrow, heq.symm⟩
  · intro row hrow
    have hmem : some row ∈ l.map f := h ▸ List.mem_map_of_mem hrow
    exact List.mem_map.mp hmem

/-! ### The rows of an entry -/

namespace Xml.Place

variable {entry : Place} {owner : Owner}

theorem row?_eq (howner : entry.owner? = some owner)
    (h : entry.element.WellFormedReservation owner.principal?) :
    ∃ row, entry.reservation? Element.nonEmptyAttribute? = some row ∧
      (UrlReservation.read entry.element owner).row? = some row ∧
      row.id = UrlReservation.idOf entry.element owner := by
  obtain ⟨componentId, hcomponent, rfl⟩ := Option.map_eq_some_iff.mp howner
  obtain ⟨url, hurl⟩ := Option.isSome_iff_exists.mp h.url
  have hown := fun kind =>
    entry.element.authored?_eq_own? (α := ReservationAttribute) h.nonempty kind
  have hid : entry.element.authored? ReservationAttribute.id = entry.element.own? "Id" := hown .id
  have htoken : entry.element.authored? ReservationAttribute.handleExisting
      = entry.element.own? "HandleExisting" :=
    hown .handleExisting
  have hsddl : UrlReservation.sddlOf? entry.element = entry.element.own? "Sddl" := hown .sddl
  have hurlOf : UrlReservation.urlOf? entry.element = some url := (hown .url).trans hurl
  have hhandling : (entry.element.own? "HandleExisting").elim (some HandleExisting.replace)
      Choice.ofToken? = some (UrlReservation.handleExistingOf entry.element) := by
    rw [Choice.elim_ofToken? HandleExisting.replace h.handleExisting,
      UrlReservation.handleExistingOf, htoken]
    rfl
  have hidOf :
      UrlReservation.idOf entry.element
          ⟨componentId, entry.ambientPrincipal? Element.nonEmptyAttribute?⟩
        = (entry.element.own? "Id").elim
            (.derive .urlReservation
              [some componentId, entry.ambientPrincipal? Element.nonEmptyAttribute?, some url])
            Identifier.mk := by
    rw [UrlReservation.idOf, hid, hurlOf]
    cases entry.element.own? "Id" <;> rfl
  refine
    ⟨⟨UrlReservation.idOf entry.element
        ⟨componentId, entry.ambientPrincipal? Element.nonEmptyAttribute?⟩,
      UrlReservation.handleExistingOf entry.element, entry.element.own? "Sddl", url, componentId⟩,
      ?_, ?_, rfl⟩
  · rw [reservation?, hcomponent, hurl, hhandling, hidOf]
    rfl
  · rw [UrlReservation.read, hurlOf, hsddl]
    rfl

/-- The rows an entry that follows the grammar offers are the ones it stands for. -/
theorem rows_eq (howner : entry.owner? = some owner)
    (h : entry.element.WellFormedReservation owner.principal?) :
    (∃ row, entry.reservation? Element.nonEmptyAttribute? = some row ∧
      (UrlReservation.actions entry.element owner).filterMap Action.reservation? = [row]) ∧
    entry.aces? Element.nonEmptyAttribute?
      = some ((UrlReservation.actions entry.element owner).filterMap Action.ace?) := by
  obtain ⟨row, hrow, hread, hid⟩ := row?_eq howner h
  refine ⟨⟨row, hrow, by rw [UrlReservation.reservations_actions, hread]; rfl⟩, ?_⟩
  have hambient : entry.ambientPrincipal? Element.nonEmptyAttribute? = owner.principal? := by
    obtain ⟨componentId, -, rfl⟩ := Option.map_eq_some_iff.mp howner
    rfl
  have hsddl : UrlReservation.sddlOf? entry.element = entry.element.own? "Sddl" :=
    entry.element.authored?_eq_own? h.nonempty _
  have haces : entry.element.aces.mapM (Element.aceRow? row.id owner.principal?)
      = some (entry.element.aces.filterMap (Element.aceRow? row.id owner.principal?)) :=
    mapM_of_isSome fun ace hace => (UrlAce.row?_eq (h.aces ace hace) row.id).2
  rw [aces?, hrow, hambient, Option.bind_eq_bind, Option.bind_some, haces,
    UrlReservation.aces_actions, hsddl, ← hid, List.filterMap_eq_flatMap_toList]
  by_cases hnil : entry.element.aces = []
  · rw [hnil]
    simp
  · have hnone : (entry.element.own? "Sddl").isNone = true := by
      rw [Option.isNone_iff_eq_none, ← Option.not_isSome_iff_eq_none, h.secured]
      exact hnil
    rw [if_pos hnone]
    refine congrArg some (List.flatMap_congr fun ace hace => ?_)
    rw [(UrlAce.row?_eq (h.aces ace hace) row.id).1]

/-! ### Entries where they stand -/

/-- **An entry asks for no error exactly if it is well placed and follows the grammar.** -/
theorem faultless_actions_iff (hentry : entry.isEntry = true) :
    Action.Faultless entry.actions ↔
      entry.WellPlaced ∧ entry.element.WellFormedReservation
        (entry.ambientPrincipal? Element.nonEmptyAttribute?) := by
  by_cases hplaced : entry.WellPlaced
  · obtain ⟨owner, howner, hactions⟩ := actions_of_wellPlaced hentry hplaced
    obtain ⟨componentId, -, rfl⟩ := Option.map_eq_some_iff.mp howner
    rw [hactions, UrlReservation.faultless_actions_iff]
    exact ⟨fun h => ⟨hplaced, h⟩, fun h => h.2⟩
  · obtain ⟨pos, message, herror, hactions⟩ := actions_of_not_wellPlaced hentry hplaced
    rw [hactions, Action.faultless_report, Diagnostic.isError_mk, herror]
    exact ⟨fun h => Bool.noConfusion h, fun h => absurd h.1 hplaced⟩

/-- A well-formed entry offers exactly the rows it stands for. -/
theorem rows_of_wellFormed (hentry : entry.isEntry = true) (hplaced : entry.WellPlaced)
    (h : entry.element.WellFormedReservation (entry.ambientPrincipal? Element.nonEmptyAttribute?)) :
    (∃ row, entry.reservation? Element.nonEmptyAttribute? = some row ∧
      entry.actions.filterMap Action.reservation? = [row]) ∧
    entry.aces? Element.nonEmptyAttribute? = some (entry.actions.filterMap Action.ace?) := by
  obtain ⟨owner, howner, hactions⟩ := actions_of_wellPlaced hentry hplaced
  have hambient : owner.principal? = entry.ambientPrincipal? Element.nonEmptyAttribute? := by
    obtain ⟨componentId, -, rfl⟩ := Option.map_eq_some_iff.mp howner
    rfl
  rw [← hambient] at h
  rw [hactions]
  exact rows_eq howner h

end Xml.Place

/-! ### Whole documents -/

namespace Xml.Document

theorem isEntry_of_mem_entries {doc : Document} {entry : Place} (h : entry ∈ doc.entries) :
    entry.isEntry = true :=
  (List.mem_filter.mp h).2

/-- All entries of a document are well placed and follow the grammar. -/
def EntriesWellFormed (doc : Document) : Prop :=
  ∀ entry ∈ doc.entries, entry.WellPlaced ∧
    entry.element.WellFormedReservation (entry.ambientPrincipal? Element.nonEmptyAttribute?)

theorem faultless_actions_iff (doc : Document) :
    Action.Faultless doc.actions ↔ doc.EntriesWellFormed := by
  rw [actions, Action.faultless_flatMap]
  exact forall₂_congr fun entry hentry =>
    Place.faultless_actions_iff (isEntry_of_mem_entries hentry)

/-- The reservations such a document offers are those its entries stand for. -/
theorem reservations_of_wellFormed {doc : Document} (h : doc.EntriesWellFormed) :
    doc.entries.mapM (Place.reservation? Element.nonEmptyAttribute?)
      = some (doc.actions.filterMap Action.reservation?) := by
  rw [mapM_eq_some_iff, actions, List.filterMap_flatMap]
  have hall := fun entry (hentry : entry ∈ doc.entries) =>
    (Place.rows_of_wellFormed (isEntry_of_mem_entries hentry) (h entry hentry).1
      (h entry hentry).2).1
  generalize doc.entries = entries at hall
  induction entries with
  | nil => rfl
  | cons entry rest ih =>
    rw [List.forall_mem_cons] at hall
    obtain ⟨⟨row, hrow, hoffered⟩, hrest⟩ := hall
    rw [List.map_cons, hrow, ih hrest, List.flatMap_cons, hoffered]
    rfl

theorem aces_of_wellFormed {doc : Document} (h : doc.EntriesWellFormed) :
    ∃ rows, doc.entries.mapM (Place.aces? Element.nonEmptyAttribute?) = some rows ∧
      rows.flatten = doc.actions.filterMap Action.ace? := by
  refine ⟨doc.entries.map fun entry => entry.actions.filterMap Action.ace?, ?_, ?_⟩
  · rw [mapM_eq_some_iff, List.map_map]
    refine List.map_congr_left fun entry hentry => ?_
    exact (Place.rows_of_wellFormed (isEntry_of_mem_entries hentry) (h entry hentry).1
      (h entry hentry).2).2
  · rw [actions, List.filterMap_flatMap, List.flatMap_def]

end Xml.Document

/--
**Acceptance is exactly the grammar, up to namesakes.**

Compiling a document reports no error exactly if every entry is well placed and follows the
grammar, and neither table would get two rows of one identifier.  The platform has no say.  The
`Name` of the service and the `Id` of the component around an entry are read by
`Element.nonEmptyAttribute?`, which takes the first attribute of that name in any namespace.
-/
theorem compile_reports_no_error_iff (doc : Document) (platform : Platform) :
    (∀ d ∈ (compile doc platform).diagnostics, d.isError = false) ↔
      doc.WellFormed Element.nonEmptyAttribute? := by
  have hflag : (compile doc platform).FlagAgrees :=
    Session.stable_flagAgrees.perform (Session.start_flagAgrees platform) .strict doc.actions
  have hclean : (∀ d ∈ (compile doc platform).diagnostics, d.isError = false) ↔
      (Session.start platform).CleanRun doc.actions := by
    rw [← Session.start_perform_encounteredError_iff, ← compile, hflag, List.any_eq_false]
    simp only [Bool.not_eq_true]
  rw [hclean, Session.start_cleanRun_iff, Document.faultless_actions_iff]
  refine ⟨?_, ?_⟩
  · intro h
    obtain ⟨hentries, hreservations, haces⟩ := h
    obtain ⟨rows, hrows, hflat⟩ := Document.aces_of_wellFormed hentries
    refine ⟨fun entry hentry => (hentries entry hentry).1,
      fun entry hentry => (hentries entry hentry).2, ?_, ?_⟩
    · rwa [filterMap_of_mapM (Document.reservations_of_wellFormed hentries)]
    · rwa [filterMap_of_mapM hrows, hflat]
  · intro h
    have hentries : doc.EntriesWellFormed :=
      fun entry hentry => ⟨h.placed entry hentry, h.reservations entry hentry⟩
    obtain ⟨rows, hrows, hflat⟩ := Document.aces_of_wellFormed hentries
    have hreservations := h.reservationIds
    have haces := h.aceIds
    rw [filterMap_of_mapM (Document.reservations_of_wellFormed hentries)] at hreservations
    rw [filterMap_of_mapM hrows, hflat] at haces
    exact ⟨hentries, hreservations, haces⟩

/--
A service with the given attributes, and in it a reservation whose access control entry names no
principal.
-/
def serviceDocument (attributes : List Xml.Attribute) : Document :=
  let own name value : Xml.Attribute := ⟨none, name, value, ⟨1, 1⟩⟩
  let http name attributes pos : Xml.Tag :=
    ⟨some Vocabulary.httpNamespace, name, attributes, pos⟩
  let ace := .element (http "UrlAce" [own "Id" "A"] ⟨4, 7⟩) []
  let reservation :=
    .element (http "UrlReservation" [own "Id" "R", own "Url" "http://+:80/"] ⟨3, 5⟩) [ace]
  let service := .element ⟨none, "ServiceInstall", attributes, ⟨2, 3⟩⟩ [reservation]
  ⟨[], ⟨⟨none, "Component", [own "Id" "C"], ⟨1, 1⟩⟩, [service]⟩, []⟩

/--
For a reader of unqualified attributes the grammar is another one, in both directions: a name that
another extension gives the service is accepted, and an empty one hides the name of the service.
-/
theorem acceptance_ne_unqualified_grammar :
    let named : Xml.Attribute := ⟨none, "Name", "x", ⟨2, 29⟩⟩
    let foreign value : Xml.Attribute := ⟨some "urn:other", "Name", value, ⟨2, 19⟩⟩
    ((compile (serviceDocument [foreign "x"]) .x86).diagnostics = [] ∧
      ¬ (serviceDocument [foreign "x"]).WellFormed Element.unqualified?) ∧
    (serviceDocument [foreign "", named]).WellFormed Element.unqualified? ∧
      (compile (serviceDocument [foreign "", named]) .x86).diagnostics
        = [⟨⟨4, 7⟩, .expectedAttribute "UrlAce" "SecurityPrincipal"⟩] := by
  decide

end UrlReservations
