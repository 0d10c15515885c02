/-
Markup of other extensions is warned about and changes nothing else.

Stripping a document takes the attributes and children of other extensions off its entries and
off the access control entries in them.  On the side of the readers this removes warnings from
what is asked for and nothing else, level by level: from a tag (`findings_ownAttributes`), from
an access control entry, from a reservation, from an entry where it stands, from the document
(`actions_strip`).

On the side of the session, a run without the warnings is the run with them, up to the warnings
themselves and the record of foreign markup (`perform_withoutWarnings`): no warning raises the
flag, and no table is ever asked about one.
-/
import UrlReservations.Proofs.Editing
import UrlReservations.Proofs.Growth

namespace UrlReservations

open Xml (Attribute Element Node Place Document Tag)

/-! ### Stripping -/

namespace Xml

/-- The tag of an element without the attributes of other extensions. -/
def Element.ownTag (element : Element) : Tag :=
  { element.tag with attributes := element.ownAttributes }

/-- The content of an element without the elements of other extensions. -/
def Element.ownContent (element : Element) : List Node :=
  element.content.filter fun node => node.element?.all (·.isHttp)

/-- An access control entry without markup of other extensions; other elements are left alone. -/
def Element.stripAce (element : Element) : Element :=
  if UrlReservation.isAce element then ⟨element.ownTag, element.ownContent⟩ else element

/-- The same for a node. -/
def Node.stripAce : Node → Node
  | .element tag content => (Element.stripAce ⟨tag, content⟩).toNode
  | .text data => .text data
  | .remark r => .remark r

/--
An entry without markup of other extensions, on itself and on the access control entries in it.
-/
def Element.stripEntry (element : Element) : Element :=
  ⟨element.ownTag, element.ownContent.map Node.stripAce⟩

/--
A document without markup of other extensions on its entries and on
the access control entries in them.
-/
def Document.strip (doc : Document) : Document := doc.editEntries Element.stripEntry

theorem keepsNames_stripEntry : KeepsNames Element.stripEntry :=
  ⟨fun _ => rfl, fun _ => rfl, fun _ => rfl⟩

theorem Node.element?_stripAce (node : Node) :
    node.stripAce.element? = node.element?.map Element.stripAce := by
  cases node <;> rfl

namespace Element

variable (element : Element)

theorem children_ownContent (tag : Tag) :
    (⟨tag, element.ownContent⟩ : Element).children = element.children.filter (·.isHttp) := by
  rw [children, ownContent, List.filterMap_filter, children, List.filter_filterMap]
  refine List.filterMap_congr fun node _ => ?_
  cases node with
  | element tag content =>
    by_cases h : Element.isHttp ⟨tag, content⟩ = true <;> simp [h, Option.filter]
  | text data => rfl
  | remark r => rfl

theorem children_stripEntry :
    element.stripEntry.children = (element.children.filter (·.isHttp)).map stripAce := by
  rw [← children_ownContent element element.tag, children, stripEntry, children, List.filterMap_map,
    List.map_filterMap]
  exact List.filterMap_congr fun node _ => Node.element?_stripAce node

theorem isHttp_stripAce : element.stripAce.isHttp = element.isHttp := by
  rw [stripAce]
  split <;> rfl

theorem name_stripAce : element.stripAce.name = element.name := by
  rw [stripAce]
  split <;> rfl

theorem pos_stripAce : element.stripAce.pos = element.pos := by
  rw [stripAce]
  split <;> rfl

theorem isAce_stripAce : UrlReservation.isAce element.stripAce = UrlReservation.isAce element := by
  rw [UrlReservation.isAce, isHttp_stripAce, name_stripAce, UrlReservation.isAce]

end Element

end Xml

/-! ### Warnings among actions -/

namespace Action

/-- Whether an action reports a warning. -/
def isWarning (action : Action) : Bool := action.diagnostic?.any (!·.isError)

/-- What is left of a list of actions without the warnings. -/
def withoutWarnings (actions : List Action) : List Action := actions.filter (!·.isWarning)

@[simp] theorem withoutWarnings_append (first second : List Action) :
    withoutWarnings (first ++ second) = withoutWarnings first ++ withoutWarnings second :=
  List.filter_append ..

theorem withoutWarnings_flatMap {β : Type} (l : List β) (f : β → List Action) :
    withoutWarnings (l.flatMap f) = l.flatMap fun b => withoutWarnings (f b) :=
  List.filter_flatMap

/-- Reporting errors is no warning. -/
theorem withoutWarnings_reports {diagnostics : List Diagnostic}
    (h : ∀ d ∈ diagnostics, d.isError = true) :
    withoutWarnings (diagnostics.map report) = diagnostics.map report := by
  rw [withoutWarnings, List.filter_eq_self]
  intro action haction
  obtain ⟨d, hd, rfl⟩ := List.mem_map.mp haction
  simp [isWarning, h d hd]

theorem withoutWarnings_report {d : Diagnostic} (h : d.isError = true) :
    withoutWarnings [report d] = [report d] := by
  have hall : ∀ d' ∈ [d], d'.isError = true := by simpa using h
  exact withoutWarnings_reports hall

end Action

open UrlReservations.Action
  (withoutWarnings withoutWarnings_append withoutWarnings_flatMap withoutWarnings_reports
    withoutWarnings_report)

/--
A reading without the warnings of another, and with its row, asks for
the same without the warnings.
-/
theorem Reading.allActions_withoutWarnings {ρ : Type} {reading stripped : Reading ρ}
    {emit : ρ → Action} (hemit : ∀ row, (emit row).isWarning = false)
    (hactions : stripped.actions = withoutWarnings reading.actions)
    (hrow : stripped.row? = reading.row?) :
    stripped.allActions emit = withoutWarnings (reading.allActions emit) := by
  have hkept : withoutWarnings (reading.row?.toList.map emit) = reading.row?.toList.map emit := by
    cases reading.row? <;> simp [withoutWarnings, hemit]
  rw [allActions, hactions, hrow, allActions, withoutWarnings_append, hkept]

/-! ### Attributes -/

section Attributes

variable {α : Type} [AttributeSet α] [DecidableEq α]

/-- Whether an attribute is found to belong to another extension. -/
def Finding.isForeign : Finding α → Bool
  | .foreign _ => true
  | _ => false

/-- The attributes of other extensions have no part in what the others are found to be. -/
theorem findings_ownAttributes (attributes : List Attribute) (seen : List α) :
    findings seen (attributes.filter (·.isOwn))
      = (findings seen attributes).filter (!·.isForeign) := by
  induction attributes generalizing seen with
  | nil => rfl
  | cons a rest ih =>
    by_cases hown : a.isOwn = true
    · rw [List.filter_cons_of_pos hown, findings, findings, if_pos hown, if_pos hown]
      cases AttributeSet.ofName? (α := α) a.name with
      | none => simp [Finding.isForeign, ih]
      | some kind => by_cases hseen : kind ∈ seen <;> simp [hseen, Finding.isForeign, ih]
    · -- a foreign attribute leaves the names met so far as they are
      rw [List.filter_cons_of_neg hown, findings, if_neg hown,
        List.filter_cons_of_neg (by simp [Finding.isForeign]), ih]

/-- A visit leaves out exactly the warnings when a tag loses the attributes of other extensions. -/
theorem Xml.Element.visitAttributes_ownTag (element : Element) (content : List Node)
    {faults : α → AttributeValue → List Diagnostic}
    (hfaults : ∀ kind v, ∀ d ∈ faults kind v, d.isError = true) :
    (⟨element.ownTag, content⟩ : Element).visitAttributes
        (fun kind v => (faults kind v).map .report)
      = withoutWarnings (element.visitAttributes fun kind v => (faults kind v).map .report) := by
  have hfindings : (⟨element.ownTag, content⟩ : Element).attributeFindings α
      = (element.attributeFindings α).filter (!·.isForeign) :=
    findings_ownAttributes element.attributes []
  rw [visitAttributes, hfindings, visitAttributes, withoutWarnings_flatMap,
    ← UrlReservation.flatMap_ite]
  refine List.flatMap_congr fun finding _ => ?_
  cases finding with
  | foreign a => rfl
  | unknown a => rfl
  | repeated kind a => rfl
  | first kind a => exact (withoutWarnings_reports (hfaults kind _)).symm

theorem Xml.Element.authored?_ownTag [LawfulAttributeSet α] (element : Element)
    (content : List Node) (kind : α) :
    (⟨element.ownTag, content⟩ : Element).authored? kind = element.authored? kind := by
  have hown : (⟨element.ownTag, content⟩ : Element).ownAttributes = element.ownAttributes := by
    simp [ownAttributes, attributes, ownTag]
  rw [authored?_eq, own?, hown, authored?_eq, own?]

end Attributes

/-! ### What readers find wrong -/

private theorem isError_of_mem_ite (c : Prop) [Decidable c] (pos : Position) {message : Message}
    (h : message.isError = true) :
    ∀ d ∈ if c then [(⟨pos, message⟩ : Diagnostic)] else [], d.isError = true := by
  intro d hd
  split at hd
  · rw [List.mem_singleton.mp hd]
    exact h
  · simp at hd

/-! ### Access control entries -/

namespace UrlAce

theorem withoutWarnings_childActions (ace child : Element) :
    withoutWarnings (childActions ace child)
      = if child.isHttp = true then childActions ace child else [] := by
  rw [childActions]
  split
  · exact withoutWarnings_report rfl
  · rfl

/--
**Without markup of other extensions, an access control entry asks for
the same, its warnings left out.**
-/
theorem actions_own (ace : Element) (reservationId : Identifier) (ambient? : Option String) :
    actions ⟨ace.ownTag, ace.ownContent⟩ reservationId ambient?
      = withoutWarnings (actions ace reservationId ambient?) := by
  have hauthored := fun kind : AceAttribute => ace.authored?_ownTag ace.ownContent kind
  have hclosing : closingFaults ⟨ace.ownTag, ace.ownContent⟩ ambient?
      = closingFaults ace ambient? := by
    simp only [closingFaults, principal?, hauthored]
    rfl
  have hrow : (read ⟨ace.ownTag, ace.ownContent⟩ reservationId ambient?).row?
      = (read ace reservationId ambient?).row? := by
    simp only [read, principal?, idOf, rightsOf, hauthored]
  have hchildren : (⟨ace.ownTag, ace.ownContent⟩ : Element).children.flatMap
      (childActions ⟨ace.ownTag, ace.ownContent⟩)
        = withoutWarnings (ace.children.flatMap (childActions ace)) := by
    rw [Element.children_ownContent, withoutWarnings_flatMap, ← UrlReservation.flatMap_ite]
    refine List.flatMap_congr fun child _ => ?_
    rw [withoutWarnings_childActions]
    split <;> simp_all [childActions]
  have hfaults : ∀ d ∈ closingFaults ace ambient?, d.isError = true := isError_of_mem_ite _ _ rfl
  have hvalues : ∀ kind v, ∀ d ∈ AceAttribute.faults kind v, d.isError = true := fun kind v d hd =>
    Message.isError_of_isAboutValue (kind.isAboutValue_of_mem_faults v d hd)
  refine Reading.allActions_withoutWarnings (fun _ => rfl) ?_ hrow
  rw [read, read, hchildren, hclosing, ace.visitAttributes_ownTag _ hvalues,
    withoutWarnings_append, withoutWarnings_append, withoutWarnings_reports hfaults]

end UrlAce

/-! ### Reservations -/

namespace UrlReservation

variable (element : Element) (owner : Owner)

theorem authored?_stripEntry (kind : ReservationAttribute) :
    element.stripEntry.authored? kind = element.authored? kind := element.authored?_ownTag _ kind

theorem idOf_stripEntry : idOf element.stripEntry owner = idOf element owner := by
  simp only [idOf, urlOf?, authored?_stripEntry]

/--
A child that is left in a reservation asks for the same, its warnings
left out; one that is not asked for warnings only.
-/
theorem childActions_stripEntry (child : Element) :
    (if child.isHttp = true then childActions element.stripEntry owner child.stripAce else [])
      = withoutWarnings (childActions element owner child) := by
  have hsddl : sddlOf? element.stripEntry = sddlOf? element := authored?_stripEntry element .sddl
  rw [childActions, childActions, child.isHttp_stripAce, child.name_stripAce, child.pos_stripAce,
    hsddl, idOf_stripEntry]
  cases hhttp : child.isHttp with
  | false => rfl
  | true =>
    by_cases hname : child.name = Vocabulary.urlAce
    · have hstrip : child.stripAce = ⟨child.ownTag, child.ownContent⟩ := by
        rw [Element.stripAce, if_pos ((isAce_iff child).mpr ⟨hhttp, hname⟩)]
      cases hdescriptor : sddlOf? element with
      | some sddl => simp [hname, withoutWarnings_report, Message.isError, Message.severity]
      | none => simp [hname, hstrip, UrlAce.actions_own]
    · simp [hname, withoutWarnings_report, Message.isError, Message.severity]

theorem isUnsecured_stripEntry : isUnsecured element.stripEntry = isUnsecured element := by
  have hsddl : sddlOf? element.stripEntry = sddlOf? element := authored?_stripEntry element .sddl
  have haces : element.stripEntry.children.any isAce = element.children.any isAce := by
    rw [Element.children_stripEntry, List.any_map, List.any_filter]
    congr 1
    funext child
    rw [Function.comp_apply, Element.isAce_stripAce, isAce, ← Bool.and_assoc, Bool.and_self]
  rw [isUnsecured, hsddl, haces, isUnsecured]

/--
**Without markup of other extensions, a reservation asks for the same, its warnings left out.**
-/
theorem actions_stripEntry :
    actions element.stripEntry owner = withoutWarnings (actions element owner) := by
  have hclosing : closingFaults element.stripEntry = closingFaults element := by
    rw [closingFaults, urlOf?, authored?_stripEntry, isUnsecured_stripEntry, closingFaults, urlOf?]
    rfl
  have hrow : (read element.stripEntry owner).row? = (read element owner).row? := by
    simp only [read, urlOf?, sddlOf?, handleExistingOf, idOf_stripEntry, authored?_stripEntry]
  have hchildren : element.stripEntry.children.flatMap (childActions element.stripEntry owner)
      = withoutWarnings (element.children.flatMap (childActions element owner)) := by
    rw [Element.children_stripEntry, List.flatMap_map, ← flatMap_ite, withoutWarnings_flatMap]
    exact List.flatMap_congr fun child _ => childActions_stripEntry element owner child
  have hfaults : ∀ d ∈ closingFaults element, d.isError = true := by
    rw [closingFaults, List.forall_mem_append]
    exact ⟨isError_of_mem_ite _ _ rfl, isError_of_mem_ite _ _ rfl⟩
  have hvalues : ∀ kind v, ∀ d ∈ ReservationAttribute.faults kind v, d.isError = true :=
    fun kind v d hd =>
      Message.isError_of_isAboutValue (kind.isAboutValue_of_mem_faults v d hd)
  refine Reading.allActions_withoutWarnings (fun _ => rfl) ?_ hrow
  rw [read, read, hchildren, hclosing, withoutWarnings_append, withoutWarnings_append,
    withoutWarnings_reports hfaults, ← element.visitAttributes_ownTag _ hvalues]
  rfl

end UrlReservation

/-! ### Entries where they stand -/

theorem Registry.isError_of_resolve_http {name : String} {resolve : ParentHandler}
    {context : ParentContext} {message : Message} (hresolve : http.parent? name = some resolve)
    (h : resolve context = .error message) : message.isError = true := by
  obtain ⟨element, key, rfl⟩ := missing_of_resolve_http hresolve h
  rfl

theorem Registry.dispatch_stripEntry (parent : Element) {element : Element}
    (hhttp : element.isHttp = true) (context : ParentContext) :
    http.dispatch parent element.stripEntry context
      = withoutWarnings (http.dispatch parent element context) := by
  have hhttp' : element.stripEntry.isHttp = true := hhttp
  by_cases hplace : element.name = "UrlReservation" ∧
      (parent.isCoreNamed "Component" = true ∨ parent.isCoreNamed "ServiceInstall" = true)
  · obtain ⟨helement, hparent⟩ := hplace
    have hcore : parent.isCore = true := by
      rcases hparent with hparent | hparent <;> exact (Bool.and_eq_true_iff.mp hparent).1
    obtain ⟨resolve, hresolve⟩ : ∃ resolve, http.parent? parent.name = some resolve := by
      rw [parent?_http]
      rcases hparent with hparent | hparent <;>
        rw [of_decide_eq_true (Bool.and_eq_true_iff.mp hparent).2] <;> exact ⟨_, rfl⟩
    rw [dispatch_http_of_parent context hhttp helement hcore hresolve,
      dispatch_http_of_parent context hhttp' helement hcore hresolve]
    cases howner : resolve context with
    | ok owner => exact UrlReservation.actions_stripEntry element owner
    | error message => exact (withoutWarnings_report (isError_of_resolve_http hresolve howner)).symm
  · rw [dispatch_http_of_unexpected context hhttp hplace,
      dispatch_http_of_unexpected context hhttp' hplace]
    rfl

namespace Xml

/-- An entry asks for the same where it stands, its warnings left out. -/
theorem Place.actions_strip {entry : Place} (h : entry.isEntry = true) :
    (entry.editEntries Element.stripEntry).actions = withoutWarnings entry.actions := by
  have hhttp := isHttp_of_isEntry h
  have helement : (entry.editEntries Element.stripEntry).element = entry.element.stripEntry :=
    Element.editEntries_of_isHttp hhttp
  obtain ⟨parent, hparent⟩ := parent?_of_isEntry h
  have hcontext := (parent.alike_editEntries keepsNames_stripEntry).context
  have hsame := parent.element.sameHead_editEntries keepsNames_stripEntry
  rw [actions, parent?_editEntries, hparent, actions, hparent, helement, Option.map_some]
  simp only [hcontext]
  rw [← Registry.dispatch_stripEntry parent.element hhttp parent.context]
  exact Registry.http.dispatch_eq_of_sameHead hsame (.refl _) fun handler owner _ => rfl

/-- **A stripped document asks for the same, the warnings left out.** -/
theorem Document.actions_strip (doc : Document) :
    doc.strip.actions = withoutWarnings doc.actions := by
  rw [actions, strip, entries_editEntries keepsNames_stripEntry, List.flatMap_map, actions,
    withoutWarnings_flatMap]
  exact List.flatMap_congr fun entry hentry => Place.actions_strip (isEntry_of_mem_entries hentry)

end Xml

/-! ### Runs -/

namespace Session

/-- A session without its warnings and without the record of foreign markup. -/
def withoutWarnings (s : Session) : Session :=
  { s with
    diagnostics := s.diagnostics.filter (·.isError)
    extensionAttributes := []
    extensionElements := [] }

theorem withoutWarnings_report_error (s : Session) {d : Diagnostic} (h : d.isError = true) :
    (s.report d).withoutWarnings = s.withoutWarnings.report d := by
  simp [report, withoutWarnings, h]

theorem withoutWarnings_report_warning (s : Session) {d : Diagnostic} (h : d.isError = false) :
    (s.report d).withoutWarnings = s.withoutWarnings := by
  simp [report, withoutWarnings, h]

theorem withoutWarnings_addReservation (s : Session) (pos : Position) (row : UrlReservation) :
    (s.addReservation pos row).withoutWarnings = s.withoutWarnings.addReservation pos row := by
  have hkeys : s.withoutWarnings.reservations = s.reservations := rfl
  by_cases h : row.id ∈ s.reservations.keys
  · rw [addReservation_of_mem h, addReservation_of_mem (hkeys ▸ h),
      withoutWarnings_report_error s rfl]
  · rw [addReservation_of_notMem h, addReservation_of_notMem (hkeys ▸ h)]
    rfl

theorem withoutWarnings_addAce (s : Session) (pos : Position) (row : UrlAce) :
    (s.addAce pos row).withoutWarnings = s.withoutWarnings.addAce pos row := by
  have hkeys : s.withoutWarnings.aces = s.aces := rfl
  by_cases h : row.id ∈ s.aces.keys
  · rw [addAce_of_mem h, addAce_of_mem (hkeys ▸ h), withoutWarnings_report_error s rfl]
  · rw [addAce_of_notMem h, addAce_of_notMem (hkeys ▸ h)]
    rfl

/--
A warning leaves nothing but itself; any other action does the same
whether or not there were warnings.
-/
theorem act_withoutWarnings (policy : Policy) (s : Session) (action : Action) :
    (s.act policy action).withoutWarnings
      = if action.isWarning = true then s.withoutWarnings
        else s.withoutWarnings.act policy action := by
  have hgate : s.withoutWarnings.gateOpen policy = s.gateOpen policy := rfl
  cases action with
  | always operation =>
    cases operation with
    | report d =>
      cases herror : d.isError with
      | true =>
        simp [act, apply, Action.isWarning, Action.diagnostic?, herror,
          withoutWarnings_report_error]
      | false =>
        simp [act, apply, Action.isWarning, Action.diagnostic?, herror,
          withoutWarnings_report_warning]
    | addReservation pos row => exact withoutWarnings_addReservation s pos row
    | addAce pos row => exact withoutWarnings_addAce s pos row
    | addReference reference => rfl
    -- the record of foreign markup is dropped together with its warning
    | extensionAttribute item =>
      have hreport := withoutWarnings_report_warning s item.attributeWarning_isError
      exact hreport
    | extensionElement item =>
      have hreport := withoutWarnings_report_warning s item.elementWarning_isError
      exact hreport
  | emitReservation pos row =>
    show _ = s.withoutWarnings.act policy (.emitReservation pos row)
    rw [act, act, hgate]
    split
    · have hadd := withoutWarnings_addReservation s pos row
      simp only [emitReservation, ← hadd]
      rfl
    · rfl
  | emitAce pos row =>
    show _ = s.withoutWarnings.act policy (.emitAce pos row)
    rw [act, act, hgate]
    split
    · exact withoutWarnings_addAce s pos row
    · rfl

/-- **A run without the warnings is the run with them**, up to the warnings themselves. -/
theorem perform_withoutWarnings (policy : Policy) (s : Session) (actions : List Action) :
    (s.perform policy actions).withoutWarnings
      = s.withoutWarnings.perform policy (Action.withoutWarnings actions) := by
  induction actions generalizing s with
  | nil => rfl
  | cons action rest ih =>
    rw [perform_cons, ih, act_withoutWarnings, Action.withoutWarnings, Action.withoutWarnings]
    by_cases hwarning : action.isWarning = true
    · rw [if_pos hwarning, List.filter_cons_of_neg (by simp [hwarning])]
    · rw [if_neg hwarning, List.filter_cons_of_pos (by simp [hwarning]), perform_cons]

end Session

/--
**Markup of other extensions is warned about and never changes the result.**

Stripping a document of foreign attributes and children, on its entries and on the access control
entries in them, leaves rows, references and flag as they are.  What is reported about the
stripped document are the errors about the document, in order; none is a warning, and no foreign
markup is recorded.
-/
theorem compile_strip (doc : Document) (platform : Platform) :
    (compile doc.strip platform).records = (compile doc platform).records ∧
    (compile doc.strip platform).encounteredError = (compile doc platform).encounteredError ∧
    (compile doc.strip platform).diagnostics
      = (compile doc platform).diagnostics.filter (·.isError) ∧
    (∀ d ∈ (compile doc.strip platform).diagnostics, d.isError = true) ∧
    (compile doc.strip platform).extensionAttributes = [] ∧
    (compile doc.strip platform).extensionElements = [] := by
  have hstrip : compile doc.strip platform = (compile doc platform).withoutWarnings := by
    rw [compile, Document.actions_strip, compile, Session.perform_withoutWarnings]
    rfl
  rw [hstrip]
  refine ⟨rfl, rfl, rfl, ?_, rfl, rfl⟩
  intro d hd
  exact (List.mem_filter.mp hd).2

end UrlReservations
