/-
What is reported about a reservation.

A reader visits the attributes of an element with the names it has met, hands values to faults and
findings to actions, and says what is missing when it is done.  Here the same is put down as an
inspector would write it: a table of the attributes an element may have and of what their values
have to be (`ValueRule`), one remark at most for each attribute (`Attribute.violation?`), one for
each child that may not be there, and what is missing at the end (`Element.missingReports`).

A repeated attribute is one whose name was there before, so what is said of an attribute depends on
those that stand before it and on nothing else.  That is what ties the names a reader has met to the
attributes themselves (`diagnostics_findings`); all the rest of an inspection is read off element by
element.
-/
import UrlReservations.Proofs.Acceptance
import UrlReservations.Proofs.Reporting

namespace UrlReservations

/-- What is said of each of some things in turn, where it may depend on those before it. -/
def saidInTurn {α β : Type} (say : List α → α → List β) (before : List α) : List α → List β
  | [] => []
  | a :: rest => say before a ++ saidInTurn say (before ++ [a]) rest

/-! ### Attributes -/

/-- What the value of an attribute has to be, besides that it is not empty. -/
inductive ValueRule where
  | anyText
  | identifier
  | oneOf (words : List String)

namespace ValueRule

/-- The message about a value of an attribute of an element that breaks the rule. -/
def violation? (rule : ValueRule) (element name value : String) : Option Message :=
  if value = "" then some (.illegalEmptyAttributeValue element name)
  else match rule with
    | anyText => none
    | identifier =>
      if Identifier.isLegal value then none else some (.illegalIdentifier element name value)
    | oneOf words =>
      if value ∈ words then none else some (.illegalAttributeValue element name value words)

end ValueRule

/-- The attributes of a reservation, and what their values have to be. -/
def reservationRules : List (String × ValueRule) :=
  [("Id", .identifier), ("HandleExisting", .oneOf ["replace", "ignore", "fail"]),
    ("Sddl", .anyText), ("Url", .anyText)]

/-- The attributes of an access control entry, and what their values have to be. -/
def aceRules : List (String × ValueRule) :=
  [("Id", .identifier), ("SecurityPrincipal", .anyText),
    ("Rights", .oneOf ["all", "delegate", "register"])]

namespace Xml

/--
The message about an attribute of an element that stands after some
others, if there is anything wrong with it.
-/
def Attribute.violation? (rules : List (String × ValueRule)) (element : String)
    (before : List Attribute) (a : Attribute) : Option Message :=
  if a.isOwn then
    match rules.lookup a.name with
    | none => some (.unexpectedAttribute element a.name)
    | some rule =>
      if before.any fun b => b.isOwn && b.name = a.name then
        some (.duplicateAttribute element a.name)
      else rule.violation? element a.name a.value
  else some (.unsupportedExtensionAttribute element (a.uri?.getD "") a.name)

namespace Element

/-- What is reported about the attributes of an element, each at its position. -/
def attributeReports (rules : List (String × ValueRule)) (element : Element) : List Diagnostic :=
  saidInTurn (fun before a => (a.violation? rules element.name before).toList.map (⟨a.pos, ·⟩)) []
    element.attributes

/-- The value of the first own attribute of a name, unless it is empty. -/
def given? (element : Element) (name : String) : Option String :=
  (element.own? name).filter (· ≠ "")

/-! ### Elements -/

/-- What is reported about an element of another extension under its parent. -/
def foreignReport (parent child : Element) : Diagnostic :=
  ⟨child.pos, .unsupportedExtensionElement parent.name (child.uri?.getD "") child.name⟩

/-- What is reported about a child of an access control entry, whatever it is. -/
def aceChildReport (ace child : Element) : Diagnostic :=
  if child.isHttp then ⟨child.pos, .unexpectedElement "UrlAce" child.name⟩
  else ace.foreignReport child

/-- What is reported about an access control entry, under a principal that may be ambient there. -/
def aceReports (ambient? : Option String) (ace : Element) : List Diagnostic :=
  ace.attributeReports aceRules ++ ace.children.map ace.aceChildReport ++
    if ace.given? "SecurityPrincipal" = none ∧ ambient? = none then
      [⟨ace.pos, .expectedAttribute "UrlAce" "SecurityPrincipal"⟩]
    else []

/--
What is reported about a child of a reservation: entries are
inspected, unless there is a descriptor.
-/
def childReports (element : Element) (ambient? : Option String) (child : Element) :
    List Diagnostic :=
  if child.isHttp then
    if child.name = "UrlAce" then
      if element.given? "Sddl" = none then child.aceReports ambient?
      else [⟨child.pos, .illegalParentAttributeWhenNested "UrlReservation" "Sddl" "UrlAce"⟩]
    else [⟨child.pos, .unexpectedElement "UrlReservation" child.name⟩]
  else [element.foreignReport child]

/--
What is reported at the end of a reservation: that it has no URL, and that nothing secures it.
-/
def missingReports (element : Element) : List Diagnostic :=
  (if element.given? "Url" = none then [⟨element.pos, .expectedAttribute "UrlReservation" "Url"⟩]
    else []) ++
    if element.given? "Sddl" = none ∧ element.aces = [] then
      [⟨element.pos, .noSecuritySpecified⟩] else []

end Element

end Xml

open Xml (Attribute Element)

/-! ### Attributes are reported on as they are visited -/

theorem lookup_map_eq_find? {α β : Type} (name : α → String) (f : α → β) (l : List α)
    (text : String) :
    (l.map fun a => (name a, f a)).lookup text = (l.find? (name · = text)).map f := by
  induction l with
  | nil => rfl
  | cons a rest ih =>
    rw [List.map_cons, List.lookup_cons]
    by_cases h : name a = text
    · rw [List.find?_cons_of_pos (by simpa using h), h, beq_self_eq_true]
      rfl
    · rw [List.find?_cons_of_neg (by simpa using h), ← ih, beq_eq_false_iff_ne.mpr (Ne.symm h)]

/--
Values of an attribute set are judged by rules: each attribute has
one, and reports what breaks it.
-/
structure JudgedBy {α : Type} [AttributeSet α] (faults : α → AttributeValue → List Diagnostic)
    (rule : α → ValueRule) (rules : List (String × ValueRule)) : Prop where
  lookup : ∀ name, rules.lookup name = (AttributeSet.ofName? name).map rule
  faults : ∀ kind v,
    faults kind v = ((rule kind).violation? v.element v.name v.value).toList.map (⟨v.pos, ·⟩)

section Visits

variable {α : Type} [AttributeSet α]

/-- The names a visit has met are those of the own attributes before. -/
def Met (seen : List α) (before : List Attribute) : Prop :=
  ∀ kind, kind ∈ seen ↔ ∃ b ∈ before, b.isOwn = true ∧ AttributeSet.ofName? b.name = some kind

theorem Met.nil : Met ([] : List α) [] := by
  intro kind
  simp

theorem Met.append {seen seen' : List α} {before : List Attribute} {a : Attribute}
    (h : Met seen before)
    (hseen' : ∀ kind, kind ∈ seen' ↔
      kind ∈ seen ∨ (a.isOwn = true ∧ AttributeSet.ofName? a.name = some kind)) :
    Met seen' (before ++ [a]) := by
  intro kind
  rw [hseen', h kind]
  simp only [List.mem_append, List.mem_singleton, or_and_right, exists_or, exists_eq_left]

/-- Known names are those of the attributes they stand for. -/
def NamesAgree (α : Type) [AttributeSet α] : Prop :=
  ∀ (name : String) (kind : α), AttributeSet.ofName? name = some kind →
    AttributeSet.name kind = name

theorem namesAgree [LawfulAttributeSet α] : NamesAgree α :=
  fun _ _ => LawfulAttributeSet.ofName?_eq_some.mp

/-- So an attribute of a known name is met again exactly if one of its name stands before it. -/
theorem Met.mem_iff (hnames : NamesAgree α) {seen : List α} {before : List Attribute}
    (h : Met seen before) {a : Attribute} {kind : α}
    (hkind : AttributeSet.ofName? a.name = some kind) :
    kind ∈ seen ↔ before.any (fun b => b.isOwn && b.name = a.name) = true := by
  have hsame : ∀ b : Attribute, AttributeSet.ofName? b.name = some kind ↔ b.name = a.name := by
    intro b
    refine ⟨fun hb => ?_, fun hb => hb ▸ hkind⟩
    rw [← hnames b.name kind hb, hnames a.name kind hkind]
  rw [h kind]
  simp only [List.any_eq_true, Bool.and_eq_true, decide_eq_true_eq, hsame]

variable [DecidableEq α] [LawfulAttributeSet α] {faults : α → AttributeValue → List Diagnostic}
    {rule : α → ValueRule} {rules : List (String × ValueRule)}

theorem diagnostics_reports (diagnostics : List Diagnostic) :
    (diagnostics.map Action.report).filterMap Action.diagnostic? = diagnostics := by
  rw [List.filterMap_map]
  exact List.filterMap_some

theorem diagnostics_findings (hjudged : JudgedBy faults rule rules) (element : Element)
    (attributes : List Attribute) {seen : List α} {before : List Attribute}
    (hmet : Met seen before) :
    ((findings seen attributes).flatMap
        (Finding.actions element fun kind v => (faults kind v).map .report)).filterMap
          Action.diagnostic?
      = saidInTurn
          (fun before a => (a.violation? rules element.name before).toList.map (⟨a.pos, ·⟩))
          before attributes := by
  induction attributes generalizing seen before with
  | nil => rfl
  | cons a rest ih =>
    rw [saidInTurn, Attribute.violation?, hjudged.lookup, findings]
    by_cases hown : a.isOwn = true
    · rw [if_pos hown, if_pos hown]
      cases hkind : AttributeSet.ofName? (α := α) a.name with
      | none =>
        have hmet' : Met seen (before ++ [a]) := hmet.append (by simp [hkind])
        rw [List.flatMap_cons, List.filterMap_append, ih hmet']
        rfl
      | some kind =>
        have hname : AttributeSet.name kind = a.name := LawfulAttributeSet.ofName?_eq_some.mp hkind
        simp only [Option.map_some, ← hmet.mem_iff namesAgree hkind]
        by_cases hseen : kind ∈ seen
        · have hmet' : Met seen (before ++ [a]) := hmet.append (by simp_all)
          rw [if_pos hseen, if_pos hseen, List.flatMap_cons, List.filterMap_append, ih hmet',
            ← hname]
          rfl
        · have hmet' : Met (kind :: seen) (before ++ [a]) :=
            hmet.append (by simp [hown, hkind, or_comm, eq_comm])
          rw [if_neg hseen, if_neg hseen, List.flatMap_cons, List.filterMap_append, ih hmet',
            Finding.actions, diagnostics_reports, hjudged.faults, Finding.value, hname]
    · have hmet' : Met seen (before ++ [a]) := hmet.append (by simp [hown])
      rw [if_neg hown, if_neg hown, List.flatMap_cons, List.filterMap_append, ih hmet']
      rfl

theorem diagnostics_visitAttributes (hjudged : JudgedBy faults rule rules) (element : Element) :
    (element.visitAttributes fun kind v => (faults kind v).map .report).filterMap Action.diagnostic?
      = element.attributeReports rules :=
  diagnostics_findings hjudged element element.attributes Met.nil

end Visits

/-! ### Values are judged by their rules -/

namespace AttributeValue

variable (v : AttributeValue)

theorem textFaults_eq :
    v.textFaults = (ValueRule.anyText.violation? v.element v.name v.value).toList.map
      (⟨v.pos, ·⟩) := by
  unfold textFaults ValueRule.violation?
  split <;> rfl

theorem identifierFaults_eq :
    v.identifierFaults = (ValueRule.identifier.violation? v.element v.name v.value).toList.map
      (⟨v.pos, ·⟩) := by
  unfold identifierFaults ValueRule.violation? textFaults
  split
  · rfl
  · split <;> rfl

theorem choiceFaults_eq (α : Type) [Choice α] :
    (if v.value = "" then v.textFaults else v.choiceFaults α)
      = ((ValueRule.oneOf (Choice.tokens α)).violation? v.element v.name v.value).toList.map
        (⟨v.pos, ·⟩) := by
  have hlegal := Choice.mem_tokens_iff (α := α) v.value
  unfold ValueRule.violation? textFaults choiceFaults
  by_cases hempty : v.value = ""
  · simp [hempty]
  · cases hchoice : Choice.ofToken? (α := α) v.value <;> simp_all

end AttributeValue

/-- What the value of an attribute of a reservation has to be. -/
def ReservationAttribute.rule : ReservationAttribute → ValueRule
  | id => .identifier
  | handleExisting => .oneOf (Choice.tokens HandleExisting)
  | sddl => .anyText
  | url => .anyText

theorem ReservationAttribute.judged : JudgedBy faults rule reservationRules where
  lookup := lookup_map_eq_find? name rule all
  faults kind v := by
    cases kind with
    | id => exact v.identifierFaults_eq
    | handleExisting => exact v.choiceFaults_eq HandleExisting
    | sddl => exact v.textFaults_eq
    | url => exact v.textFaults_eq

/-- What the value of an attribute of an access control entry has to be. -/
def AceAttribute.rule : AceAttribute → ValueRule
  | id => .identifier
  | securityPrincipal => .anyText
  | rights => .oneOf (Choice.tokens Rights)

theorem AceAttribute.judged : JudgedBy faults rule aceRules where
  lookup := lookup_map_eq_find? name rule all
  faults kind v := by
    cases kind with
    | id => exact v.identifierFaults_eq
    | securityPrincipal => exact v.textFaults_eq
    | rights => exact v.choiceFaults_eq Rights

/-! ### Elements are reported on as they are read -/

namespace UrlAce

theorem diagnostics_childActions (ace child : Element) :
    (childActions ace child).filterMap Action.diagnostic? = [ace.aceChildReport child] := by
  unfold childActions Element.aceChildReport
  split <;> rfl

theorem principal?_eq_none_iff (ace : Element) (ambient? : Option String) :
    principal? ace ambient? = none ↔ ace.given? "SecurityPrincipal" = none ∧ ambient? = none := by
  rw [principal?, Element.authored?_eq, Option.or_eq_none_iff]
  exact Iff.rfl

/-- An access control entry is reported on as it is inspected. -/
theorem diagnostics_read (ace : Element) (reservationId : Identifier) (ambient? : Option String) :
    (read ace reservationId ambient?).actions.filterMap Action.diagnostic?
      = ace.aceReports ambient? := by
  have hclosing : closingFaults ace ambient?
      = if ace.given? "SecurityPrincipal" = none ∧ ambient? = none then
          [⟨ace.pos, .expectedAttribute "UrlAce" "SecurityPrincipal"⟩]
        else [] := by
    simp only [closingFaults, Option.isNone_iff_eq_none, principal?_eq_none_iff]
    rfl
  rw [read, List.filterMap_append, List.filterMap_append,
    diagnostics_visitAttributes AceAttribute.judged, List.filterMap_flatMap, diagnostics_reports,
    hclosing, Element.aceReports]
  simp only [diagnostics_childActions, ← List.map_eq_flatMap]

theorem diagnostics_actions (ace : Element) (reservationId : Identifier)
    (ambient? : Option String) :
    (actions ace reservationId ambient?).filterMap Action.diagnostic?
      = ace.aceReports ambient? := by
  rw [actions, Reading.allActions, List.filterMap_append, diagnostics_read]
  cases (read ace reservationId ambient?).row? <;> simp

end UrlAce

namespace UrlReservation

theorem sddlOf?_eq (element : Element) : sddlOf? element = element.given? "Sddl" :=
  element.authored?_eq _

/-- So is a child of a reservation. -/
theorem diagnostics_childActions (element child : Element) (owner : Owner) :
    (childActions element owner child).filterMap Action.diagnostic?
      = element.childReports owner.principal? child := by
  have hsddl := sddlOf?_eq element
  unfold childActions Element.childReports
  by_cases hhttp : child.isHttp = true
  · by_cases hname : child.name = "UrlAce"
    · cases hgiven : element.given? "Sddl" with
      | none => simp [hhttp, hname, hsddl, hgiven, Vocabulary.urlAce, UrlAce.diagnostics_actions]
      | some sddl =>
        simp [hhttp, hname, hsddl, hgiven, Vocabulary.urlAce, Vocabulary.urlReservation,
          ReservationAttribute.name]
    · simp [hhttp, hname, Vocabulary.urlAce, Vocabulary.urlReservation]
  · simp [hhttp, Element.foreignReport, ExtensionItem.ofElement, ExtensionItem.elementWarning]

theorem urlOf?_eq (element : Element) : urlOf? element = element.given? "Url" :=
  element.authored?_eq _

theorem closingFaults_eq (element : Element) : closingFaults element = element.missingReports := by
  simp only [closingFaults, isUnsecured, Element.missingReports, urlOf?_eq, sddlOf?_eq,
    Option.isNone_iff_eq_none, Bool.and_eq_true, Bool.not_eq_true', ← aces_eq_nil_iff]
  rfl

end UrlReservation

end UrlReservations
