/-
The arrangement of attributes does not matter.

A tag is read from its first attribute to its last, with the names met before, and everything that
comes of an attribute goes to the session where the attribute stands.  So moving one moves what is
reported, and may move an error in front of a row.  That nothing else changes takes two facts.  If
own names are distinct, no attribute is a repetition, and what one is does not depend on those
before it (`findings_eq_map_alone`): a visit of a rearranged tag is a rearranged visit.  And the
attributes of an element are all visited before any row that depends on them is emitted, so the gate
meets the same errors, in whatever order.

An own attribute counts the same without a namespace and in that of the extension;
`Attribute.bare` forgets which.  What is left of a session once the order of its reports is
forgotten is said by `Session.SameUpToOrder`, and two lists of actions are interchangeable if they
lead from sessions that are the same in that sense to others that are.
-/
import UrlReservations.Proofs.Growth
import UrlReservations.Proofs.Reporting
import UrlReservations.Proofs.Unread

namespace UrlReservations

/-! ### Rearranged tags -/

namespace Xml

/-- An attribute without its namespace, unless it is foreign. -/
def Attribute.bare (a : Attribute) : Attribute := if a.isOwn then { a with uri? := none } else a

namespace Element

/--
Two elements have the same head, and the same attributes in any order, each with its value and its
position, where an own one may or may not be qualified.
-/
structure RearrangedTag (a b : Element) : Prop where
  head : a.SameHead b
  attributes : (a.attributes.map Attribute.bare).Perm (b.attributes.map Attribute.bare)

/--
Two children of a reservation are the same, but if they are access
control entries, their tags may be rearranged.
-/
structure RearrangedChild (a b : Element) : Prop where
  tag : a.tag = b.tag ∨ UrlReservation.isAce a = true ∧ a.RearrangedTag b
  content : a.content = b.content

/--
Two reservations are the same, but their tags and those of the entries
among their children may be rearranged.
-/
structure RearrangedReservation (a b : Element) : Prop extends RearrangedTag a b where
  children : List.Forall₂ RearrangedChild a.children b.children

end Element

namespace Attribute

variable (a : Attribute)

theorem isOwn_bare : a.bare.isOwn = a.isOwn := by
  unfold bare
  split
  · rename_i hown
    rw [hown]
    rfl
  · rfl

theorem name_bare : a.bare.name = a.name := by unfold bare; split <;> rfl

theorem value_bare : a.bare.value = a.value := by unfold bare; split <;> rfl

end Attribute

namespace Element

variable {a b : Element}

theorem RearrangedTag.of_tag (h : a.tag = b.tag) : a.RearrangedTag b :=
  ⟨.of_tag h, by rw [Element.attributes, h, Element.attributes]⟩

theorem RearrangedChild.toRearrangedTag (h : a.RearrangedChild b) : a.RearrangedTag b := by
  rcases h.tag with htag | ⟨-, htag⟩
  · exact .of_tag htag
  · exact htag

/--
A function of own attributes that does not see the namespace sees the same ones, in any order.
-/
theorem RearrangedTag.map_ownAttributes {β : Type} (h : a.RearrangedTag b) (f : Attribute → β)
    (hf : ∀ x : Attribute, f x.bare = f x) :
    (a.ownAttributes.map f).Perm (b.ownAttributes.map f) := by
  have hbare (element : Element) :
      element.ownAttributes.map f
        = ((element.attributes.map Attribute.bare).filter (·.isOwn)).map f := by
    rw [List.filter_map, List.map_map, ownAttributes]
    simp only [Function.comp_def, Attribute.isOwn_bare, hf]
  rw [hbare a, hbare b]
  exact (h.attributes.filter _).map f

theorem RearrangedTag.nodup (h : a.RearrangedTag b)
    (hdistinct : (a.ownAttributes.map (·.name)).Nodup) : (b.ownAttributes.map (·.name)).Nodup :=
  (h.map_ownAttributes (·.name) Attribute.name_bare).nodup_iff.mp hdistinct

end Element

end Xml

open Xml (Attribute Element)

/-! ### What is authored -/

namespace Xml.Element.RearrangedTag

variable {α : Type} [AttributeSet α] {a b : Element} (h : a.RearrangedTag b)
  (hdistinct : (a.ownAttributes.map (·.name)).Nodup)
include h hdistinct

/-- If names are distinct, the first attribute of a name is the only one. -/
theorem own?_eq (name : String) : a.own? name = b.own? name := by
  have hvalues := h.map_ownAttributes (fun x => (x.name, x.value)) fun x =>
    congrArg₂ Prod.mk x.name_bare x.value_bare
  refine Option.ext fun value => ?_
  rw [own?_eq_some_iff hdistinct, own?_eq_some_iff (h.nodup hdistinct)]
  simpa only [List.mem_map, Prod.mk.injEq] using hvalues.mem_iff (a := (name, value))

theorem authored?_eq [DecidableEq α] [LawfulAttributeSet α] (kind : α) :
    a.authored? kind = b.authored? kind := by
  rw [Element.authored?_eq, h.own?_eq hdistinct, Element.authored?_eq]

end Xml.Element.RearrangedTag

/-! ### Visits -/

section Visits

variable {α : Type} [AttributeSet α]

/-- What an attribute is, if none of its name was there before. -/
def Finding.alone (a : Attribute) : Finding α :=
  if a.isOwn then
    match AttributeSet.ofName? a.name with
    | none => .unknown a
    | some kind => .first kind a
  else .foreign a

/-- What comes of it does not depend on the namespace of an own attribute. -/
theorem Finding.actions_alone_bare (element : Element) (visit : α → AttributeValue → List Action)
    (a : Attribute) : (alone a.bare).actions element visit = (alone a).actions element visit := by
  by_cases hown : a.isOwn = true
  · rw [alone, alone, Attribute.isOwn_bare, Attribute.name_bare, if_pos hown, if_pos hown,
      Attribute.bare, if_pos hown]
    cases AttributeSet.ofName? (α := α) a.name <;> rfl
  · rw [Attribute.bare, if_neg hown]

variable [DecidableEq α] [LawfulAttributeSet α]

/-- If own names are distinct, and none was met before, every attribute is what it is alone. -/
theorem findings_eq_map_alone (attributes : List Attribute) (seen : List α)
    (hdistinct : ((attributes.filter (·.isOwn)).map (·.name)).Nodup)
    (hseen : ∀ a ∈ attributes.filter (·.isOwn), ∀ kind ∈ seen, AttributeSet.name kind ≠ a.name) :
    findings seen attributes = attributes.map Finding.alone := by
  induction attributes generalizing seen with
  | nil => rfl
  | cons a rest ih =>
    rw [findings, List.map_cons, Finding.alone]
    by_cases hown : a.isOwn = true
    · rw [List.filter_cons_of_pos (by simpa using hown)] at hdistinct hseen
      rw [List.map_cons, List.nodup_cons] at hdistinct
      obtain ⟨hnew, hdistinct⟩ := hdistinct
      obtain ⟨ha, hrest⟩ := List.forall_mem_cons.mp hseen
      rw [if_pos hown, if_pos hown]
      cases hkind : AttributeSet.ofName? (α := α) a.name with
      | none => simp only [ih seen hdistinct hrest]
      | some kind =>
        have hname : AttributeSet.name kind = a.name := LawfulAttributeSet.ofName?_eq_some.mp hkind
        have hunseen : kind ∉ seen := fun hmem => ha kind hmem hname
        have hrest' : ∀ b ∈ rest.filter (·.isOwn), ∀ other ∈ kind :: seen,
            AttributeSet.name other ≠ b.name := by
          intro b hb other hother
          rcases List.mem_cons.mp hother with rfl | hother
          · intro hsame
            exact hnew (List.mem_map.mpr ⟨b, hb, hsame.symm.trans hname⟩)
          · exact hrest b hb other hother
        simp only [if_neg hunseen, ih (kind :: seen) hdistinct hrest']
    · rw [List.filter_cons_of_neg (by simpa using hown)] at hdistinct hseen
      rw [if_neg hown, if_neg hown, ih seen hdistinct hseen]

theorem Xml.Element.visitAttributes_eq_flatMap {element : Element}
    (hdistinct : (element.ownAttributes.map (·.name)).Nodup)
    (visit : α → AttributeValue → List Action) :
    element.visitAttributes visit
      = (element.attributes.map Attribute.bare).flatMap fun a =>
        (Finding.alone a).actions element visit := by
  have hseen : ∀ a ∈ element.attributes.filter (·.isOwn), ∀ kind ∈ ([] : List α),
      AttributeSet.name kind ≠ a.name := by
    intro a _ kind hkind
    exact absurd hkind List.not_mem_nil
  rw [visitAttributes, attributeFindings,
    findings_eq_map_alone element.attributes [] hdistinct hseen, List.flatMap_map, List.flatMap_map]
  simp only [Finding.actions_alone_bare]

/-- **A visit of a rearranged tag is a rearranged visit.** -/
theorem Xml.Element.RearrangedTag.visitAttributes {a b : Element} (h : a.RearrangedTag b)
    (hdistinct : (a.ownAttributes.map (·.name)).Nodup) (visit : α → AttributeValue → List Action) :
    (a.visitAttributes visit).Perm (b.visitAttributes visit) := by
  rw [visitAttributes_eq_flatMap hdistinct, visitAttributes_eq_flatMap (h.nodup hdistinct),
    Finding.actions_eq_of_name h.head.name]
  exact h.attributes.flatMap_right _

end Visits

/-! ### Sessions up to the order of reports -/

namespace Session

/--
Two sessions are the same, but what was reported and what other
extensions own may be in another order.
-/
structure SameUpToOrder (s t : Session) : Prop where
  platform : s.platform = t.platform
  encounteredError : s.encounteredError = t.encounteredError
  reservations : s.reservations = t.reservations
  aces : s.aces = t.aces
  references : s.references = t.references
  diagnostics : s.diagnostics.Perm t.diagnostics
  extensionAttributes : s.extensionAttributes.Perm t.extensionAttributes
  extensionElements : s.extensionElements.Perm t.extensionElements

namespace SameUpToOrder

variable {s t : Session}

@[refl] theorem refl (s : Session) : SameUpToOrder s s :=
  ⟨rfl, rfl, rfl, rfl, rfl, .refl _, .refl _, .refl _⟩

variable (h : SameUpToOrder s t)
include h

theorem gateOpen (policy : Policy) : s.gateOpen policy = t.gateOpen policy := by
  unfold Session.gateOpen
  rw [h.encounteredError]

theorem report (d : Diagnostic) : SameUpToOrder (s.report d) (t.report d) where
  __ := h
  encounteredError := congrArg (· || d.isError) h.encounteredError
  diagnostics := h.diagnostics.append_right [d]

theorem addReference (reference : Reference) :
    SameUpToOrder (s.addReference reference) (t.addReference reference) where
  __ := h
  references := congrArg (·.insertNew reference) h.references

theorem addReservation (pos : Position) (row : UrlReservation) :
    SameUpToOrder (s.addReservation pos row) (t.addReservation pos row) := by
  by_cases hused : row.id ∈ s.reservations.keys
  · rw [addReservation_of_mem hused, addReservation_of_mem (h.reservations ▸ hused)]
    exact h.report _
  · rw [addReservation_of_notMem hused, addReservation_of_notMem (h.reservations ▸ hused)]
    exact { h with reservations := by simp only [h.reservations] }

theorem addAce (pos : Position) (row : UrlAce) :
    SameUpToOrder (s.addAce pos row) (t.addAce pos row) := by
  by_cases hused : row.id ∈ s.aces.keys
  · rw [addAce_of_mem hused, addAce_of_mem (h.aces ▸ hused)]
    exact h.report _
  · rw [addAce_of_notMem hused, addAce_of_notMem (h.aces ▸ hused)]
    exact { h with aces := by simp only [h.aces] }

/-- One action does the same on both. -/
theorem act (policy : Policy) (action : Action) :
    SameUpToOrder (s.act policy action) (t.act policy action) := by
  cases action with
  | always operation =>
    cases operation with
    | report d => exact h.report d
    | addReservation pos row => exact h.addReservation pos row
    | addAce pos row => exact h.addAce pos row
    | addReference reference => exact h.addReference reference
    | extensionAttribute item =>
      exact { h.report item.attributeWarning with
        extensionAttributes := h.extensionAttributes.append_right [item] }
    | extensionElement item =>
      exact { h.report item.elementWarning with
        extensionElements := h.extensionElements.append_right [item] }
  | emitReservation pos row =>
    rw [Session.act, Session.act, h.gateOpen, emitReservation, emitReservation, h.platform]
    split
    · exact ((h.addReservation pos row).addReference _).addReference _
    · exact h
  | emitAce pos row =>
    rw [Session.act, Session.act, h.gateOpen]
    split
    · exact h.addAce pos row
    · exact h

omit h in
/-- What was added to one session to get to two that are the same is the same in another order. -/
theorem exists_added {u v : Session} (h : SameUpToOrder u v) (hu : s.Extends u) (hv : s.Extends v) :
    ∃ added added', u.diagnostics = s.diagnostics ++ added ∧
      v.diagnostics = s.diagnostics ++ added' ∧
      added.Perm added' := by
  obtain ⟨added, hadded⟩ := hu.diagnostics
  obtain ⟨added', hadded'⟩ := hv.diagnostics
  have hperm := h.diagnostics
  rw [← hadded, ← hadded', List.perm_append_left_iff] at hperm
  exact ⟨added, added', hadded.symm, hadded'.symm, hperm⟩

end SameUpToOrder

/-- Two lists of actions do the same, up to the order of reports. -/
def Interchangeable (policy : Policy) (actions actions' : List Action) : Prop :=
  ∀ s t, SameUpToOrder s t → SameUpToOrder (s.perform policy actions) (t.perform policy actions')

namespace Interchangeable

variable {policy : Policy}

@[refl] theorem refl (actions : List Action) : Interchangeable policy actions actions := by
  intro s t h
  induction actions generalizing s t with
  | nil => exact h
  | cons action rest ih => exact ih _ _ (h.act policy action)

theorem append {first first' second second' : List Action} (h : Interchangeable policy first first')
    (h' : Interchangeable policy second second') :
    Interchangeable policy (first ++ second) (first' ++ second') := by
  intro s t hsame
  rw [perform_append, perform_append]
  exact h' _ _ (h _ _ hsame)

theorem flatMap {β : Type} {R : β → β → Prop} {l l' : List β} {f g : β → List Action}
    (h : List.Forall₂ R l l') (hfg : ∀ b b', b ∈ l → R b b' → Interchangeable policy (f b) (g b')) :
    Interchangeable policy (l.flatMap f) (l'.flatMap g) := by
  induction h with
  | nil => exact refl []
  | cons hR _ ih =>
    rw [List.flatMap_cons, List.flatMap_cons]
    exact append (hfg _ _ List.mem_cons_self hR) (ih fun b b' hb =>
      hfg b b' (List.mem_cons_of_mem _ hb))

/-- **Remarks may be made in any order.** -/
theorem of_perm {actions actions' : List Action} (h : actions.Perm actions')
    (hremarks : ∀ action ∈ actions, action.isRemark = true) :
    Interchangeable policy actions actions' := by
  intro s t hsame
  have hremarks' : ∀ action ∈ actions', action.isRemark = true := fun action haction =>
    hremarks action (h.mem_iff.mpr haction)
  have hdiagnostics := h.filterMap Action.diagnostic?
  rw [perform_of_remarks policy s hremarks, perform_of_remarks policy t hremarks']
  exact {
    hsame with
    encounteredError := congrArg₂ (· || ·) hsame.encounteredError (hdiagnostics.any_eq)
    diagnostics := hsame.diagnostics.append hdiagnostics
    extensionAttributes := hsame.extensionAttributes.append (h.filterMap _)
    extensionElements := hsame.extensionElements.append (h.filterMap _) }

end Interchangeable

end Session

/-! ### Readers -/

section Readers

variable {a b c d : Element} {policy : Policy}

theorem UrlAce.interchangeable_actions (h : a.RearrangedTag b) (hcontent : a.content = b.content)
    (hdistinct : (a.ownAttributes.map (·.name)).Nodup) (reservationId : Identifier)
    (ambient? : Option String) :
    Session.Interchangeable policy (actions a reservationId ambient?)
      (actions b reservationId ambient?) := by
  have hauthored (kind : AceAttribute) := h.authored?_eq hdistinct kind
  have hprincipal : principal? a ambient? = principal? b ambient? := by
    rw [principal?, hauthored, principal?]
  have hchildren : a.children.flatMap (childActions a) = b.children.flatMap (childActions b) := by
    rw [Element.children, hcontent, Element.children]
    refine List.flatMap_congr fun child _ => ?_
    rw [childActions, Action.forwardElement_eq_of_sameHead h.head (.refl child), childActions]
  have hclosing : closingFaults a ambient? = closingFaults b ambient? := by
    rw [closingFaults, hprincipal, h.head.pos, closingFaults]
  have hrow : (read a reservationId ambient?).row? = (read b reservationId ambient?).row? := by
    simp only [read, hprincipal, idOf, rightsOf, hauthored]
  have hvisit := h.visitAttributes hdistinct fun (kind : AceAttribute) v =>
    (kind.faults v).map Action.report
  rw [actions, Reading.allActions, hrow, h.head.pos, actions, Reading.allActions]
  refine .append ?_ (.refl _)
  rw [read, read, hchildren, hclosing]
  exact .append (.append (.of_perm hvisit (a.isRemark_of_mem_visitAttributes _)) (.refl _))
    (.refl _)

namespace UrlReservation

theorem interchangeable_childActions (h : a.RearrangedTag b)
    (hdistinct : (a.ownAttributes.map (·.name)).Nodup) (hchild : c.RearrangedChild d)
    (hace : isAce c = true → (c.ownAttributes.map (·.name)).Nodup) (owner : Owner) :
    Session.Interchangeable policy (childActions a owner c) (childActions b owner d) := by
  have hhead := hchild.toRearrangedTag.head
  have hauthored (kind : ReservationAttribute) := h.authored?_eq hdistinct kind
  have hid : idOf a owner = idOf b owner := by simp only [idOf, urlOf?, hauthored]
  have hsddl : sddlOf? a = sddlOf? b := hauthored _
  rw [childActions, childActions, ← hhead.isHttp, ← hhead.name, ← hhead.pos, ← hsddl, ← hid,
    Action.forwardElement_eq_of_sameHead h.head hhead]
  split
  · exact .refl _
  · split
    · exact .refl _
    · split
      · exact .refl _
      · -- only here is the child read
        rename_i hhttp hname _
        have hdistinct' := hace (by simpa [isAce] using And.intro hhttp hname)
        exact UrlAce.interchangeable_actions hchild.toRearrangedTag hchild.content hdistinct' _ _

theorem row?_eq_of_rearranged (h : a.RearrangedTag b)
    (hdistinct : (a.ownAttributes.map (·.name)).Nodup) (owner : Owner) :
    (read a owner).row? = (read b owner).row? := by
  have hauthored (kind : ReservationAttribute) := h.authored?_eq hdistinct kind
  simp only [read, idOf, handleExistingOf, sddlOf?, urlOf?, hauthored]

theorem closingFaults_eq_of_rearranged (h : a.RearrangedReservation b)
    (hdistinct : (a.ownAttributes.map (·.name)).Nodup) : closingFaults a = closingFaults b := by
  have hurl : urlOf? a = urlOf? b := h.authored?_eq hdistinct _
  have hsddl : sddlOf? a = sddlOf? b := h.authored?_eq hdistinct _
  have hany : a.children.any isAce = b.children.any isAce :=
    any_eq_of_forall₂ h.children fun c d hchild => isAce_eq_of_sameHead hchild.toRearrangedTag.head
  rw [closingFaults, closingFaults, isUnsecured, isUnsecured, hurl, hsddl, hany, h.head.pos]

/-- **What a rearranged reservation asks for before its row does the same.** -/
theorem interchangeable_read (h : a.RearrangedReservation b)
    (hdistinct : (a.ownAttributes.map (·.name)).Nodup)
    (haces : ∀ ace ∈ a.aces, (ace.ownAttributes.map (·.name)).Nodup) (owner : Owner) :
    Session.Interchangeable policy (read a owner).actions (read b owner).actions := by
  have hvisit := h.visitAttributes hdistinct fun (kind : ReservationAttribute) v =>
    (kind.faults v).map Action.report
  have hchildren : Session.Interchangeable policy (a.children.flatMap (childActions a owner))
      (b.children.flatMap (childActions b owner)) :=
    .flatMap h.children fun c d hmem hchild =>
      interchangeable_childActions h.toRearrangedTag hdistinct hchild
        (fun hace => haces c (List.mem_filter.mpr ⟨hmem, hace⟩)) owner
  rw [read, read, closingFaults_eq_of_rearranged h hdistinct]
  exact .append (.append (.of_perm hvisit (a.isRemark_of_mem_visitAttributes _)) hchildren)
    (.refl _)

end UrlReservation

end Readers

theorem Session.settle_extends {ρ : Type} (policy : Policy) (s : Session) (reading : Reading ρ)
    (emit : ρ → Action) : s.Extends (s.settle policy reading emit).1 := by
  rw [settle_fst]
  exact perform_extends policy s (reading.allActions emit)

/-- Interchangeable readings of one row are settled alike. -/
theorem Session.Interchangeable.settle {ρ : Type} {policy : Policy} {reading reading' : Reading ρ}
    (h : Interchangeable policy reading.actions reading'.actions)
    (hrow : reading.row? = reading'.row?) (emit : ρ → Action) (s : Session) :
    (s.settle policy reading emit).2 = (s.settle policy reading' emit).2 ∧
      SameUpToOrder (s.settle policy reading emit).1 (s.settle policy reading' emit).1 := by
  have hsame := h s s (.refl s)
  rw [Session.settle, Session.settle, ← hrow]
  cases reading.row? with
  | none => exact ⟨rfl, hsame⟩
  | some row => exact ⟨by simp only [hsame.gateOpen], hsame.act policy (emit row)⟩

/--
**The arrangement of attributes does not matter.**

The attributes of a reservation, and those of each access control entry among its children, may be
put in any order, and those that are its own may be qualified or not, as long as no two own ones of
one element have the same name.  Reading the reservation into a session, whatever there was before,
then has the same answer and leaves the same rows, references and flag, and what it adds to the
diagnostics is the same in another order.
-/
theorem arrangement_irrelevant {a b : Element} (h : a.RearrangedReservation b)
    (hdistinct : (a.ownAttributes.map (·.name)).Nodup)
    (haces : ∀ ace ∈ a.aces, (ace.ownAttributes.map (·.name)).Nodup) (policy : Policy) (s : Session)
    (owner : Owner) :
    let result := s.readReservation policy a owner
    let result' := s.readReservation policy b owner
    result.2 = result'.2 ∧ result.1.reservations = result'.1.reservations ∧
      result.1.aces = result'.1.aces ∧ result.1.references = result'.1.references ∧
      result.1.encounteredError = result'.1.encounteredError ∧
      ∃ added added', result.1.diagnostics = s.diagnostics ++ added ∧
        result'.1.diagnostics = s.diagnostics ++ added' ∧ added.Perm added' := by
  intro result result'
  have hread : Session.Interchangeable policy (UrlReservation.read a owner).actions
      (UrlReservation.read b owner).actions :=
    UrlReservation.interchangeable_read h hdistinct haces owner
  have hrow := UrlReservation.row?_eq_of_rearranged h.toRearrangedTag hdistinct owner
  have hemit : Action.emitReservation a.pos = Action.emitReservation b.pos := congrArg _ h.head.pos
  obtain ⟨hanswer, hsame⟩ : result.2 = result'.2 ∧ result.1.SameUpToOrder result'.1 := by
    simp only [result, result', Session.readReservation, hemit]
    exact hread.settle hrow (.emitReservation b.pos) s
  have hadded :=
    hsame.exists_added
      (s.settle_extends policy (UrlReservation.read a owner) (.emitReservation a.pos))
      (s.settle_extends policy (UrlReservation.read b owner) (.emitReservation b.pos))
  exact ⟨hanswer, hsame.reservations, hsame.aces, hsame.references, hsame.encounteredError, hadded⟩

/-- A reservation with one access control entry. -/
def reservationWithAce (attributes aceAttributes : List Attribute) : Element :=
  let http name attributes pos : Xml.Tag := ⟨some Vocabulary.httpNamespace, name, attributes, pos⟩
  ⟨http "UrlReservation" attributes ⟨1, 1⟩,
    [.text " ", .element (http "UrlAce" aceAttributes ⟨2, 3⟩) []]⟩

/--
Written backwards, with its own attributes qualified, it is the same
but for the order of two warnings.
-/
theorem arrangement_irrelevant_backwards :
    let own name value column : Attribute := ⟨none, name, value, ⟨1, column⟩⟩
    let foreign uri column : Attribute := ⟨some uri, "Note", "", ⟨1, column⟩⟩
    let qualify (a : Attribute) : Attribute :=
      if a.isOwn then { a with uri? := some Vocabulary.httpNamespace } else a
    let attributes :=
      [foreign "urn:a" 17, own "Id" "R" 27, own "Url" "http://+:80/" 34, foreign "urn:b" 53]
    let aceAttributes := [own "Id" "A" 9, own "SecurityPrincipal" "Everyone" 16]
    let a := reservationWithAce attributes aceAttributes
    let b := reservationWithAce (attributes.reverse.map qualify) (aceAttributes.reverse.map qualify)
    let result := (Session.start .x86).readReservation .strict a ⟨"C", none⟩
    let result' := (Session.start .x86).readReservation .strict b ⟨"C", none⟩
    a.RearrangedReservation b ∧ (a.ownAttributes.map (·.name)).Nodup ∧
      (∀ ace ∈ a.aces, (ace.ownAttributes.map (·.name)).Nodup) ∧
      result.2 = result'.2 ∧ result.1.reservations = result'.1.reservations ∧
      result.1.aces = result'.1.aces ∧
      result.1.diagnostics ≠ result'.1.diagnostics ∧ result'.1.reservations.keys = [⟨"R"⟩] ∧
      result'.1.aces.keys = [⟨"A"⟩] := by
  intro own foreign qualify attributes aceAttributes a b result result'
  have hace : List.Forall₂ Element.RearrangedChild a.children b.children :=
    .cons ⟨.inr ⟨by decide, ⟨rfl, rfl, rfl⟩, by decide⟩, rfl⟩ .nil
  have halike : a.RearrangedReservation b := ⟨⟨⟨rfl, rfl, rfl⟩, by decide⟩, hace⟩
  have hdistinct : (a.ownAttributes.map (·.name)).Nodup := by decide
  have haces : ∀ ace ∈ a.aces, (ace.ownAttributes.map (·.name)).Nodup := by decide
  obtain ⟨hanswer, hreservations, hentries, -⟩ :=
    arrangement_irrelevant halike hdistinct haces .strict (.start .x86) ⟨"C", none⟩
  exact ⟨halike, hdistinct, haces, hanswer, hreservations, hentries,
    by decide, by decide, by decide⟩

end UrlReservations
