/-
Diagnostics point into the right place.

A position is taken where something is read and may be used much later, by a session that refuses a
row long after the element was read.  So every diagnostic is traced back to the action that brought
it about (`Session.exists_added`): the action reports it on any session, or asks for a row that is
refused where the run has got to by then.

What a reservation asks for comes in three kinds (`UrlReservation.Asks`): remarks on something in
view of the element, rows of access control entries, each at the entry it was read from, and the
row of the reservation, at the reservation.  Positions in view of an element are few, and in a
document they are all positions of elements and attributes, since whatever has a place there has
its children and the elements around it there, too.
-/
import UrlReservations.Proofs.Places
import UrlReservations.Proofs.Refusals
import UrlReservations.Proofs.Visiting

namespace UrlReservations

open Xml (Attribute Element Node Place Step Document placesIn)

/-! ### Positions in view of an element -/

namespace Xml

namespace Element

/-- Where an element starts and where its attributes are named. -/
def tagPositions (element : Element) : List Position :=
  element.pos :: element.attributes.map (·.pos)

/-- The same, and where its children start. -/
def positions (element : Element) : List Position :=
  element.tagPositions ++ element.children.map (·.pos)

/-- The positions of an element and of the access control entries directly inside it. -/
def positionsInView (element : Element) : List Position :=
  element.positions ++ element.aces.flatMap positions

variable {element ace child : Element}

theorem pos_mem_positions (element : Element) : element.pos ∈ element.positions :=
  List.mem_cons_self

theorem pos_mem_positions_of_mem_children (h : child ∈ element.children) :
    child.pos ∈ element.positions :=
  List.mem_append_right _ (List.mem_map_of_mem h)

theorem positions_subset (element : Element) : element.positions ⊆ element.positionsInView :=
  List.subset_append_left _ _

theorem positions_subset_of_mem_aces (h : ace ∈ element.aces) :
    ace.positions ⊆ element.positionsInView :=
  fun _ hpos => List.mem_append_right _ (List.mem_flatMap.mpr ⟨ace, h, hpos⟩)

end Element

/-- Where the elements of a document start and where their attributes are named. -/
def Document.positions (doc : Document) : List Position :=
  doc.places.flatMap (·.element.tagPositions)

/-! ### Children of elements in a document -/

/-- Each element of some content has a place in it. -/
theorem exists_mem_placesIn_of_element (nodes : List Node) (above : List Step)
    (before : List Element) {child : Element} (h : child ∈ nodes.filterMap Node.element?) :
    ∃ place ∈ placesIn above before nodes, place.element = child := by
  induction nodes generalizing before with
  | nil => simp at h
  | cons node rest ih =>
    cases node with
    | element tag content =>
      rw [placesIn_element]
      change child ∈ (⟨tag, content⟩ : Element) :: rest.filterMap Node.element? at h
      rcases List.mem_cons.mp h with rfl | h
      · exact ⟨_, List.mem_cons_self, rfl⟩
      · obtain ⟨place, hplace, rfl⟩ := ih (before ++ [⟨tag, content⟩]) h
        exact ⟨place, List.mem_cons_of_mem _ (List.mem_append_right _ hplace), rfl⟩
    | text data =>
      rw [placesIn_text]
      exact ih before (by simpa using h)
    | remark r =>
      rw [placesIn_remark]
      exact ih before (by simpa using h)

/-- So do the children of each element met there. -/
theorem exists_mem_placesIn_of_mem_children (nodes : List Node) :
    ∀ (above : List Step) (before : List Element),
      ∀ place ∈ placesIn above before nodes, ∀ child ∈ place.element.children,
        ∃ inner ∈ placesIn above before nodes, inner.element = child := by
  induction nodes using Node.forestInduction with
  | nil =>
    intro above before place hplace
    simp [placesIn] at hplace
  | element tag content rest ihContent ihRest =>
    intro above before place hplace child hchild
    rw [placesIn_element, List.mem_cons, List.mem_append] at hplace
    rw [placesIn_element]
    rcases hplace with rfl | hplace | hplace
    · obtain ⟨inner, hinner, rfl⟩ :=
        exists_mem_placesIn_of_element content (⟨before, ⟨tag, content⟩⟩ :: above) [] hchild
      exact ⟨inner, List.mem_cons_of_mem _ (List.mem_append_left _ hinner), rfl⟩
    · obtain ⟨inner, hinner, rfl⟩ := ihContent _ [] place hplace child hchild
      exact ⟨inner, List.mem_cons_of_mem _ (List.mem_append_left _ hinner), rfl⟩
    · obtain ⟨inner, hinner, rfl⟩ := ihRest above _ place hplace child hchild
      exact ⟨inner, List.mem_cons_of_mem _ (List.mem_append_right _ hinner), rfl⟩
  | text data rest ih =>
    intro above before
    rw [placesIn_text]
    exact ih above before
  | remark r rest ih =>
    intro above before
    rw [placesIn_remark]
    exact ih above before

namespace Document

variable {doc : Document} {place : Place}

theorem exists_mem_places_of_mem_children (hplace : place ∈ doc.places) {child : Element}
    (hchild : child ∈ place.element.children) : ∃ inner ∈ doc.places, inner.element = child := by
  rw [places_eq] at hplace ⊢
  exact exists_mem_placesIn_of_mem_children _ [] [] place hplace child hchild

theorem tagPositions_subset (hplace : place ∈ doc.places) :
    place.element.tagPositions ⊆ doc.positions :=
  fun _ hpos => List.mem_flatMap.mpr ⟨place, hplace, hpos⟩

theorem positions_subset (hplace : place ∈ doc.places) :
    place.element.positions ⊆ doc.positions := by
  refine List.append_subset.mpr ⟨tagPositions_subset hplace, ?_⟩
  intro pos hpos
  obtain ⟨child, hchild, rfl⟩ := List.mem_map.mp hpos
  obtain ⟨inner, hinner, rfl⟩ := exists_mem_places_of_mem_children hplace hchild
  exact tagPositions_subset hinner List.mem_cons_self

/-- What is in view of an element of a document is in the document. -/
theorem positionsInView_subset (hplace : place ∈ doc.places) :
    place.element.positionsInView ⊆ doc.positions := by
  refine List.append_subset.mpr ⟨positions_subset hplace, ?_⟩
  intro pos hpos
  obtain ⟨ace, hace, hpos⟩ := List.mem_flatMap.mp hpos
  obtain ⟨inner, hinner, rfl⟩ :=
    exists_mem_places_of_mem_children hplace (List.mem_of_mem_filter hace)
  exact positions_subset hinner hpos

end Document

end Xml

/-! ### Where a diagnostic comes from -/

namespace Session

variable {policy : Policy} {s : Session} {pos : Position} {d : Diagnostic}

theorem of_refusal?_emitReservation {row : UrlReservation}
    (h : s.refusal? policy (.emitReservation pos row) = some d) :
    row.id ∈ s.reservations.keys ∧
      d = ⟨pos, .duplicateSymbol "WixHttpUrlReservation" row.id.text⟩ := by
  rw [refusal?, Option.ite_none_right_eq_some, refuseReservation?, Option.ite_none_right_eq_some,
    Option.some.injEq] at h
  exact ⟨h.2.1, h.2.2.symm⟩

theorem of_refusal?_emitAce {row : UrlAce} (h : s.refusal? policy (.emitAce pos row) = some d) :
    row.id ∈ s.aces.keys ∧ d = ⟨pos, .duplicateSymbol "WixHttpUrlAce" row.id.text⟩ := by
  rw [refusal?, Option.ite_none_right_eq_some, refuseAce?, Option.ite_none_right_eq_some,
    Option.some.injEq] at h
  exact ⟨h.2.1, h.2.2.symm⟩

/--
What is added to the diagnostics by a run was brought about by one of
its actions, where the run had got to.
-/
theorem exists_added (policy : Policy) (s : Session) (actions : List Action) :
    ∃ added, (s.perform policy actions).diagnostics = s.diagnostics ++ added ∧ ∀ d ∈ added,
      ∃ earlier action later, actions = earlier ++ action :: later ∧
        (d ∈ action.diagnostic? ∨ (s.perform policy earlier).refusal? policy action = some d) := by
  induction actions generalizing s with
  | nil => exact ⟨[], (List.append_nil _).symm, by simp⟩
  | cons action rest ih =>
    obtain ⟨added, hadded, hcause⟩ := ih (s.act policy action)
    refine ⟨action.diagnostic?.toList ++ (s.refusal? policy action).toList ++ added, ?_, ?_⟩
    · rw [perform_cons, hadded, act_diagnostics, List.append_assoc]
    · intro d hd
      rw [List.mem_append, List.mem_append, Option.mem_toList, Option.mem_toList] at hd
      rcases hd with hd | hd
      · exact ⟨[], action, rest, rfl, hd⟩
      · obtain ⟨earlier, cause, later, rfl, hsaid⟩ := hcause d hd
        exact ⟨action :: earlier, cause, later, rfl, hsaid⟩

end Session

/-- Whether an action is a remark on something at one of some positions. -/
def Action.RemarksOn (positions : List Position) (action : Action) : Prop :=
  action.isRemark = true ∧ ∀ d ∈ action.diagnostic?, d.pos ∈ positions

namespace Action

variable {positions positions' : List Position} {action : Action}

theorem RemarksOn.mono (h : action.RemarksOn positions) (hsubset : positions ⊆ positions') :
    action.RemarksOn positions' := ⟨h.1, fun d hd => hsubset (h.2 d hd)⟩

theorem remarksOn_report {d : Diagnostic} (h : d.pos ∈ positions) :
    (report d).RemarksOn positions := by
  refine ⟨rfl, ?_⟩
  intro e he
  rw [← Option.some.inj he]
  exact h

theorem remarksOn_forwardElement {parent element : Element} (h : element.pos ∈ positions) :
    (forwardElement parent element).RemarksOn positions :=
  ⟨rfl, (remarksOn_report h).2⟩

end Action

/-! ### What readers remark on -/

section Visits

variable {α : Type} [AttributeSet α] {faults : α → AttributeValue → List Diagnostic}
    {rule : α → ValueRule} {rules : List (String × ValueRule)}

/-- A value that is judged by a rule is reported where it was authored. -/
theorem JudgedBy.pos_eq (h : JudgedBy faults rule rules) {kind : α} {v : AttributeValue}
    {d : Diagnostic} (hd : d ∈ faults kind v) : d.pos = v.pos := by
  rw [h.faults] at hd
  obtain ⟨message, -, rfl⟩ := List.mem_map.mp hd
  rfl

theorem JudgedBy.remarksOn_of_mem_visitAttributes [DecidableEq α] (h : JudgedBy faults rule rules)
    (element : Element) :
    ∀ action ∈ element.visitAttributes fun kind v => (faults kind v).map .report,
      action.RemarksOn element.positions := by
  intro action haction
  obtain ⟨finding, hfinding, haction⟩ := List.mem_flatMap.mp haction
  have habout : finding.about ∈ element.attributes :=
    map_about_findings ([] : List α) element.attributes ▸ List.mem_map_of_mem hfinding
  have hpos : finding.about.pos ∈ element.positions :=
    List.mem_append_left _ (List.mem_cons_of_mem _ (List.mem_map_of_mem habout))
  cases finding with
  | foreign a =>
    rw [List.mem_singleton.mp haction]
    exact ⟨rfl, (Action.remarksOn_report hpos).2⟩
  | unknown a =>
    rw [List.mem_singleton.mp haction]
    exact Action.remarksOn_report hpos
  | repeated kind a =>
    rw [List.mem_singleton.mp haction]
    exact Action.remarksOn_report hpos
  | first kind a =>
    obtain ⟨d, hd, rfl⟩ := List.mem_map.mp haction
    exact Action.remarksOn_report (h.pos_eq hd ▸ hpos)

end Visits

namespace UrlAce

theorem remarksOn_of_mem_childActions {ace child : Element} (hchild : child ∈ ace.children) :
    ∀ action ∈ childActions ace child, action.RemarksOn ace.positions := by
  have hpos := Element.pos_mem_positions_of_mem_children hchild
  intro action haction
  unfold childActions at haction
  split at haction
  · rw [List.mem_singleton.mp haction]
    exact Action.remarksOn_report hpos
  · rw [List.mem_singleton.mp haction]
    exact Action.remarksOn_forwardElement hpos

/-- Before its row, an access control entry asks for remarks on what belongs to it. -/
theorem remarksOn_of_mem_read (ace : Element) (reservationId : Identifier)
    (ambient? : Option String) :
    ∀ action ∈ (read ace reservationId ambient?).actions, action.RemarksOn ace.positions := by
  intro action haction
  simp only [read, List.mem_append] at haction
  rcases haction with (haction | haction) | haction
  · exact AceAttribute.judged.remarksOn_of_mem_visitAttributes ace action haction
  · obtain ⟨child, hchild, haction⟩ := List.mem_flatMap.mp haction
    exact remarksOn_of_mem_childActions hchild action haction
  · obtain ⟨d, hd, rfl⟩ := List.mem_map.mp haction
    rw [closingFaults, List.mem_ite_nil_right, List.mem_singleton] at hd
    rw [hd.2]
    exact Action.remarksOn_report ace.pos_mem_positions

end UrlAce

namespace UrlReservation

/-! ### What a reservation asks for -/

/--
What a reservation asks for: remarks on what is in view of it, the rows of the access control
entries directly inside it, each at its entry, and its own row where it starts itself.
-/
inductive Asks (element : Element) (owner : Owner) : Action → Prop where
  | remark {action : Action}
    (h : action.RemarksOn element.positionsInView) : Asks element owner action
  | emitAce {ace : Element} {row : UrlAce} (hace : ace ∈ element.aces)
    (hrow : (UrlAce.read ace (idOf element owner) owner.principal?).row? = some row) :
    Asks element owner (.emitAce ace.pos row)
  | emitReservation {row : UrlReservation} (hrow : (read element owner).row? = some row) :
    Asks element owner (.emitReservation element.pos row)

variable {element child : Element} {owner : Owner}

theorem asks_of_mem_childActions (hchild : child ∈ element.children) :
    ∀ action ∈ childActions element owner child, Asks element owner action := by
  have hpos := element.positions_subset (Element.pos_mem_positions_of_mem_children hchild)
  intro action haction
  unfold childActions at haction
  split at haction
  · rw [List.mem_singleton.mp haction]
    exact .remark (Action.remarksOn_forwardElement hpos)
  · rename_i hhttp
    split at haction
    · rw [List.mem_singleton.mp haction]
      exact .remark (Action.remarksOn_report hpos)
    · rename_i hname
      split at haction
      · rw [List.mem_singleton.mp haction]
        exact .remark (Action.remarksOn_report hpos)
      · have hace : child ∈ element.aces := List.mem_filter.mpr ⟨hchild, by simp_all [isAce]⟩
        rw [UrlAce.actions, Reading.allActions, List.mem_append] at haction
        rcases haction with haction | haction
        · exact .remark ((UrlAce.remarksOn_of_mem_read child _ _ action haction).mono
            (Element.positions_subset_of_mem_aces hace))
        · obtain ⟨row, hrow, rfl⟩ := List.mem_map.mp haction
          exact .emitAce hace (Option.mem_toList.mp hrow)

theorem asks_of_mem_actions (element : Element) (owner : Owner) :
    ∀ action ∈ actions element owner, Asks element owner action := by
  intro action haction
  simp only [actions, Reading.allActions, List.mem_append] at haction
  rcases haction with haction | haction
  · simp only [read, List.mem_append] at haction
    rcases haction with (haction | haction) | haction
    · exact .remark
        ((ReservationAttribute.judged.remarksOn_of_mem_visitAttributes element action haction).mono
          element.positions_subset)
    · obtain ⟨child, hchild, haction⟩ := List.mem_flatMap.mp haction
      exact asks_of_mem_childActions hchild action haction
    · obtain ⟨d, hd, rfl⟩ := List.mem_map.mp haction
      have hpos : d.pos = element.pos := by
        rw [closingFaults, List.mem_append, List.mem_ite_nil_right, List.mem_ite_nil_right,
          List.mem_singleton, List.mem_singleton] at hd
        rcases hd with ⟨-, rfl⟩ | ⟨-, rfl⟩ <;> rfl
      exact .remark (Action.remarksOn_report
        (hpos ▸ element.positions_subset element.pos_mem_positions))
  · obtain ⟨row, hrow, rfl⟩ := List.mem_map.mp haction
    exact .emitReservation (Option.mem_toList.mp hrow)

end UrlReservation

/-! ### Where dispatched elements are reported on -/

/--
A diagnostic points at something in view of an element, or, if a value was missing, at its parent.
-/
def Diagnostic.PointsInto (parent element : Element) (d : Diagnostic) : Prop :=
  d.pos ∈ element.positionsInView ∨
    (∃ name key, d.message = .missingContextValue name key) ∧ d.pos = parent.pos

namespace UrlReservation

/--
A diagnostic says that a row was refused that was read from a reservation, or from an access
control entry directly inside it: when it was the turn of the row, its identifier was in use.  It
is made where the reservation or the entry starts.
-/
inductive Refused (policy : Policy) (s : Session) (element : Element) (owner : Owner) :
    Diagnostic → Prop where
  | reservation {earlier later : List Action} {row : UrlReservation}
    (hrow : (read element owner).row? = some row)
    (hturn : actions element owner = earlier ++ .emitReservation element.pos row :: later)
    (hused : row.id ∈ (s.perform policy earlier).reservations.keys) :
    Refused policy s element owner ⟨element.pos,
      .duplicateSymbol "WixHttpUrlReservation" row.id.text⟩
  | ace {ace : Element} {earlier later : List Action} {row : UrlAce} (hace : ace ∈ element.aces)
    (hrow : (UrlAce.read ace (idOf element owner) owner.principal?).row? = some row)
    (hturn : actions element owner = earlier ++ .emitAce ace.pos row :: later)
    (hused : row.id ∈ (s.perform policy earlier).aces.keys) :
    Refused policy s element owner ⟨ace.pos, .duplicateSymbol "WixHttpUrlAce" row.id.text⟩

variable {policy : Policy} {s : Session} {element : Element} {owner : Owner} {action : Action}
    {d : Diagnostic}

/--
Whatever a session says about what a reservation asks for, it says in view of the reservation.
-/
theorem Asks.pos_mem (h : Asks element owner action)
    (hcause : d ∈ action.diagnostic? ∨ s.refusal? policy action = some d) :
    d.pos ∈ element.positionsInView := by
  cases h with
  | remark hremark =>
    rcases hcause with hreport | hrefused
    · exact hremark.2 d hreport
    · rw [Session.refusal?_of_isRemark hremark.1] at hrefused
      cases hrefused
  | emitAce hace hrow =>
    rcases hcause with hreport | hrefused
    · cases hreport
    · rw [(Session.of_refusal?_emitAce hrefused).2]
      exact element.positions_subset
        (Element.pos_mem_positions_of_mem_children (List.mem_of_mem_filter hace))
  | emitReservation hrow =>
    rcases hcause with hreport | hrefused
    · cases hreport
    · rw [(Session.of_refusal?_emitReservation hrefused).2]
      exact element.positions_subset element.pos_mem_positions

/-- If a session refuses what a reservation asks for, it is a row that was read there. -/
theorem refused_of_refusal? {earlier later : List Action}
    (hturn : actions element owner = earlier ++ action :: later)
    (h : (s.perform policy earlier).refusal? policy action = some d) :
    Refused policy s element owner d := by
  have hmem : action ∈ actions element owner := hturn ▸ List.mem_append_right _ List.mem_cons_self
  cases asks_of_mem_actions element owner action hmem with
  | remark hremark =>
    rw [Session.refusal?_of_isRemark hremark.1] at h
    cases h
  | emitAce hace hrow =>
    obtain ⟨hused, rfl⟩ := Session.of_refusal?_emitAce h
    exact .ace hace hrow hturn hused
  | emitReservation hrow =>
    obtain ⟨hused, rfl⟩ := Session.of_refusal?_emitReservation h
    exact .reservation hrow hturn hused

end UrlReservation

namespace Registry

variable {parent element : Element} {context : ParentContext} {policy : Policy} {s : Session}
    {action : Action} {d : Diagnostic}

/-- The extension handles nothing but reservations. -/
theorem eq_actions_of_route_http {handler : ElementHandler} {owner : Owner}
    (h : http.route parent element context = .handled handler owner) :
    handler = UrlReservation.actions := by
  have hhandler := handler?_of_route h
  rw [handler?_http, Option.ite_none_right_eq_some, Option.some.injEq] at hhandler
  exact hhandler.2.symm

/--
Whatever a session says about what an element under a parent asks for, it says in the right place.
-/
theorem pointsInto_of_mem_dispatch (hmem : action ∈ http.dispatch parent element context)
    (hcause : d ∈ action.diagnostic? ∨ s.refusal? policy action = some d) :
    d.PointsInto parent element := by
  have hpos := element.positions_subset element.pos_mem_positions
  have hremark : ∀ {e : Diagnostic}, action.diagnostic? = some e →
      action.isRemark = true → d = e := by
    intro e he hremark
    rcases hcause with hreport | hrefused
    · exact Option.some.inj (hreport.symm.trans he)
    · rw [Session.refusal?_of_isRemark hremark] at hrefused
      cases hrefused
  unfold dispatch at hmem
  split at hmem
  · cases List.mem_singleton.mp hmem
    rw [hremark rfl rfl]
    exact .inl hpos
  · cases List.mem_singleton.mp hmem
    rw [hremark rfl rfl]
    exact .inl hpos
  · rename_i message hroute
    obtain ⟨resolve, hresolve, hreason⟩ := resolve_of_route hroute
    cases List.mem_singleton.mp hmem
    rw [hremark rfl rfl]
    exact .inr ⟨missing_of_resolve_http hresolve hreason, rfl⟩
  · rename_i handler owner hroute
    rw [eq_actions_of_route_http hroute] at hmem
    exact .inl ((UrlReservation.asks_of_mem_actions element owner action hmem).pos_mem hcause)

/--
Where the row of an element under a parent is refused, the element is
a reservation, and the row was read there.
-/
theorem refused_of_dispatch {earlier later : List Action}
    (hturn : http.dispatch parent element context = earlier ++ action :: later)
    (hcause : d ∈ action.diagnostic? ∨ (s.perform policy earlier).refusal? policy action = some d)
    (hduplicate : d.isDuplicate = true) :
    ∃ owner, http.route parent element context = .handled UrlReservation.actions owner ∧
      UrlReservation.Refused policy s element owner d := by
  have hmem : action ∈ http.dispatch parent element context :=
    hturn ▸ List.mem_append_right _ List.mem_cons_self
  have hrefused : (s.perform policy earlier).refusal? policy action = some d := by
    refine hcause.resolve_left fun hreport => ?_
    rw [reportsNoUse_of_mem_dispatch http_hasReaders http_parentsReportNoUse parent element context
      action hmem d hreport] at hduplicate
    exact Bool.false_ne_true hduplicate
  cases hroute : http.route parent element context with
  | handled handler owner =>
    obtain rfl := eq_actions_of_route_http hroute
    rw [dispatch, hroute] at hturn
    exact ⟨owner, rfl, UrlReservation.refused_of_refusal? hturn hrefused⟩
  | _ =>
    -- a single remark, which nothing can refuse
    rw [dispatch, hroute] at hmem
    cases List.mem_singleton.mp hmem
    cases hrefused

end Registry

/-! ### Where documents are reported on -/

namespace Xml.Document

/--
Whatever a session says about what a document asks for, it says where
there is something in the document.
-/
theorem pos_mem_of_mem_actions {doc : Document} {policy : Policy} {s : Session} {action : Action}
    {d : Diagnostic} (hmem : action ∈ doc.actions)
    (hcause : d ∈ action.diagnostic? ∨ s.refusal? policy action = some d) :
    d.pos ∈ doc.positions := by
  obtain ⟨entry, hentry, hmem⟩ := List.mem_flatMap.mp hmem
  have hplace : entry ∈ doc.places := List.mem_of_mem_filter hentry
  unfold Place.actions at hmem
  split at hmem
  · exact absurd hmem List.not_mem_nil
  · rename_i parent hparent
    rcases Registry.pointsInto_of_mem_dispatch hmem hcause with hpos | ⟨-, hpos⟩
    · exact positionsInView_subset hplace hpos
    · have haround : parent ∈ doc.places :=
        mem_places_of_mem_enclosing hplace
          (Place.enclosing_eq_of_parent hparent ▸ List.mem_cons_self)
      rw [hpos]
      exact tagPositions_subset haround List.mem_cons_self

end Xml.Document

/--
**Diagnostics point into the right place.**

Whatever is added to the diagnostics of a session when an element is dispatched
points at the element, at one of its children, at a child of an access control entry
directly inside it, or at the name of an attribute of the element or of such an
entry; only that a value is missing is said at the parent.  That an identifier is in
use is said where the reservation or the entry starts whose row was refused.  So in
a document every diagnostic points at an element or at the name of an attribute.
-/
theorem diagnostics_point_into_place :
    (∀ (policy : Policy) (s : Session) (d : Dispatch),
      ∃ added, (Registry.http.dispatchInto policy s d).diagnostics = s.diagnostics ++ added ∧
        ∀ e ∈ added, e.PointsInto d.parent d.element ∧
          (e.isDuplicate = true →
            ∃ owner,
              Registry.http.route d.parent d.element d.context
                = .handled UrlReservation.actions owner ∧
              UrlReservation.Refused policy s d.element owner e)) ∧
    ∀ (doc : Document) (platform : Platform), ∀ e ∈ (compile doc platform).diagnostics,
      e.pos ∈ doc.positions := by
  refine ⟨?_, ?_⟩
  · intro policy s d
    obtain ⟨added, hadded, hcause⟩ :=
      s.exists_added policy (Registry.http.dispatch d.parent d.element d.context)
    refine ⟨added, hadded, ?_⟩
    intro e he
    obtain ⟨earlier, action, later, hturn, hsaid⟩ := hcause e he
    refine ⟨?_, Registry.refused_of_dispatch hturn hsaid⟩
    exact Registry.pointsInto_of_mem_dispatch
      (hturn ▸ List.mem_append_right _ List.mem_cons_self) hsaid
  · intro doc platform e he
    obtain ⟨added, hadded, hcause⟩ := (Session.start platform).exists_added .strict doc.actions
    have hstart : (Session.start platform).diagnostics = [] := rfl
    rw [compile, hadded, hstart, List.nil_append] at he
    obtain ⟨earlier, action, later, hturn, hsaid⟩ := hcause e he
    exact Document.pos_mem_of_mem_actions (hturn ▸ List.mem_append_right _ List.mem_cons_self) hsaid

/--
A component with a reservation with two access control entries of one
identifier, and the dispatch of the reservation.
-/
def rivalEntries : Dispatch :=
  let own name value pos : Attribute := ⟨none, name, value, pos⟩
  let http := some Vocabulary.httpNamespace
  let ace line : Node := .element
    ⟨http, "UrlAce", [own "Id" "A" ⟨line, 13⟩, own "SecurityPrincipal" "Everyone" ⟨line, 20⟩],
      ⟨line, 5⟩⟩ []
  let reservation : Element :=
    ⟨⟨http, "UrlReservation", [own "Id" "R" ⟨2, 19⟩, own "Url" "http://+:80/" ⟨2, 26⟩], ⟨2, 3⟩⟩,
      [ace 3, ace 4]⟩
  ⟨⟨⟨none, "Component", [own "Id" "C" ⟨1, 12⟩], ⟨1, 1⟩⟩, [reservation.toNode]⟩, reservation,
    .ofList [(Vocabulary.componentIdKey, "C")]⟩

/-- The second entry is refused where it starts, dispatched or in a document. -/
theorem diagnostics_point_into_place_rivals :
    let refusal : Diagnostic := ⟨⟨4, 5⟩, .duplicateSymbol "WixHttpUrlAce" "A"⟩
    let doc : Document := ⟨[], rivalEntries.parent, []⟩
    (Registry.http.dispatchInto .strict (.start .x86) rivalEntries).diagnostics = [refusal] ∧
      refusal.PointsInto rivalEntries.parent rivalEntries.element ∧
      (∃ owner, UrlReservation.Refused .strict (.start .x86) rivalEntries.element owner refusal) ∧
      refusal ∈ (compile doc .x86).diagnostics ∧ refusal.pos ∈ doc.positions := by
  intro refusal doc
  have hsaid : (Registry.http.dispatchInto .strict (.start .x86) rivalEntries).diagnostics
      = [refusal] := by decide
  have hmem : refusal ∈ (compile doc .x86).diagnostics := by decide
  obtain ⟨added, hadded, hpoints⟩ :=
    diagnostics_point_into_place.1 .strict (.start .x86) rivalEntries
  have hall : added = [refusal] := hadded.symm.trans hsaid
  obtain ⟨hinto, hrefused⟩ := hpoints refusal (hall ▸ List.mem_singleton_self refusal)
  obtain ⟨owner, -, hrefused⟩ := hrefused rfl
  exact ⟨hsaid, hinto, ⟨owner, hrefused⟩, hmem,
    diagnostics_point_into_place.2 doc .x86 refusal hmem⟩

end UrlReservations
