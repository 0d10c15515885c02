/-
Parts of a document that are not read.

The compiler visits every element of a document, but inside the extension it looks into few of
them: the entries it dispatches to a reader, and the access control entries among their children.
Of everything else inside an entry, and of an entry that no reader gets, it sees the head at most,
which is the name and the position.  Character data and remarks it never sees.  Two documents that
are the same in what is seen compile to the same session, with all rows and diagnostics.

What may differ is said by relations that follow the levels the readers own, from the children of
an access control entry up to a whole document.  Outside of entries the relation walks both contents
at once, from one element to the next (`AlikeContent`), and keeps with it the elements around and
before, which decide whether an entry is read and which path its component has.
-/
import UrlReservations.Proofs.Dispatching
import UrlReservations.Proofs.Lookalikes

namespace UrlReservations

/-! ### What is seen of a document -/

/-- Whether an element is read. -/
def Route.isHandled {η : Type} : Route η → Bool
  | .handled .. => true
  | _ => false

namespace Xml

/-- Whether dispatch hands the element at a place to a reader. -/
def Place.isRead (place : Place) : Bool :=
  match place.parent? with
  | none => false
  | some parent => (Registry.http.route parent.element place.element parent.context).isHandled

namespace Element

/-- A reservation has a descriptor: its first own attribute of that name has a value. -/
def IsDescribed (element : Element) : Prop := ∃ sddl, element.own? "Sddl" = some sddl ∧ sddl ≠ ""

/-- Two access control entries have the same tag, and the heads of their children are the same. -/
structure AlikeAce (a b : Element) : Prop where
  tag : a.tag = b.tag
  children : List.Forall₂ SameHead a.children b.children

/-- Two children of a reservation have the same head, and look alike inside if they are read. -/
structure AlikeChild (described : Prop) (a b : Element) : Prop where
  head : a.SameHead b
  ace : UrlReservation.isAce a = true → ¬ described → a.AlikeAce b

/-- Two reservations have the same tag, and children that look alike. -/
structure AlikeReservation (a b : Element) : Prop where
  tag : a.tag = b.tag
  children : List.Forall₂ (AlikeChild a.IsDescribed) a.children b.children

end Element

/--
Two contents outside of entries are the same in what is seen of them, the first one standing below
and after the given elements.
-/
inductive AlikeContent : List Step → List Element → List Node → List Node → Prop where
  | nil {above before} : AlikeContent above before [] []
  /-- Character data and remarks may be left out, or put in. -/
  | left {above before node nodes nodes'} (hnode : node.element? = none)
      (hnodes : AlikeContent above before nodes nodes') :
      AlikeContent above before (node :: nodes) nodes'
  | right {above before node nodes nodes'} (hnode : node.element? = none)
      (hnodes : AlikeContent above before nodes nodes') :
      AlikeContent above before nodes (node :: nodes')
  /-- Elements that do not belong to the extension keep their tags. -/
  | outside {above before tag content content' rest rest'}
      (hhttp : Element.isHttp ⟨tag, content⟩ = false)
      (hcontent : AlikeContent (⟨before, ⟨tag, content⟩⟩ :: above) [] content content')
      (hrest : AlikeContent above (before ++ [⟨tag, content⟩]) rest rest') :
      AlikeContent above before (.element tag content :: rest) (.element tag content' :: rest')
  /-- Entries keep their heads, and look alike inside if they are read. -/
  | entry {above before tag tag' content content' rest rest'}
      (hhttp : Element.isHttp ⟨tag, content⟩ = true)
      (hhead : Element.SameHead ⟨tag, content⟩ ⟨tag', content'⟩)
      (hread : Place.isRead ⟨⟨before, ⟨tag, content⟩⟩, above⟩ = true →
        Element.AlikeReservation ⟨tag, content⟩ ⟨tag', content'⟩)
      (hrest : AlikeContent above (before ++ [⟨tag, content⟩]) rest rest') :
      AlikeContent above before (.element tag content :: rest) (.element tag' content' :: rest')

@[refl] theorem Element.AlikeReservation.refl (a : Element) : AlikeReservation a a := by
  refine ⟨rfl, List.forall₂_same.mpr fun child _ => ⟨.refl child, fun _ _ => ⟨rfl, ?_⟩⟩⟩
  exact List.forall₂_same.mpr fun inner _ => .refl inner

/-- What is not changed is the same, so each part may be changed by itself. -/
theorem AlikeContent.refl (nodes : List Node) : ∀ (above : List Step) (before : List Element),
    AlikeContent above before nodes nodes := by
  induction nodes using Node.forestInduction with
  | nil => exact fun _ _ => .nil
  | element tag content rest ihContent ihRest =>
    intro above before
    cases hhttp : Element.isHttp ⟨tag, content⟩ with
    | false => exact .outside hhttp (ihContent _ _) (ihRest _ _)
    | true => exact .entry hhttp (.refl _) (fun _ => .refl _) (ihRest _ _)
  | text data rest ih => exact fun above before => .left rfl (.right rfl (ih above before))
  | remark r rest ih => exact fun above before => .left rfl (.right rfl (ih above before))

/--
Two documents are the same in what is seen of them, which is nothing
where the root belongs to the extension.
-/
inductive Document.Alike (doc doc' : Document) : Prop where
  | httpRoot (hroot : doc.root.isHttp = true) (hroot' : doc'.root.isHttp = true)
  | outside (hhttp : doc.root.isHttp = false) (htag : doc.root.tag = doc'.root.tag)
      (hcontent : AlikeContent [⟨[], doc.root⟩] [] doc.root.content doc'.root.content)

end Xml

/-! ### Readers -/

open Xml (Element Place Document Step)

section Readers

variable {a b c d : Element}

/-- What comes of a finding depends on the name of the element only. -/
theorem Finding.actions_eq_of_name {α : Type} [AttributeSet α] (h : a.name = b.name)
    (visit : α → AttributeValue → List Action) : actions a visit = actions b visit := by
  funext finding
  cases finding <;>
    simp only [actions, value, Action.forwardAttribute, ExtensionItem.ofAttribute, h]

theorem Xml.Element.visitAttributes_eq_of_tag {α : Type} [AttributeSet α] [DecidableEq α]
    (h : a.tag = b.tag) (visit : α → AttributeValue → List Action) :
    a.visitAttributes visit = b.visitAttributes visit := by
  rw [Element.visitAttributes, Element.attributeFindings, Element.attributes, h,
    Finding.actions_eq_of_name (Element.SameHead.of_tag h).name, Element.visitAttributes,
    Element.attributeFindings, Element.attributes]

theorem Xml.Element.authored?_eq_of_tag {α : Type} [AttributeSet α] [DecidableEq α]
    (h : a.tag = b.tag) (kind : α) : a.authored? kind = b.authored? kind := by
  have hfirst : Finding.first? (α := α) a = Finding.first? b := by
    have hname : a.name = b.name := (Element.SameHead.of_tag h).name
    funext finding
    cases finding <;> simp only [Finding.first?, Finding.value, hname]
  rw [Element.authored?, Element.visited, Element.attributeFindings, Element.attributes, h, hfirst,
    Element.authored?, Element.visited, Element.attributeFindings, Element.attributes]

/-- Access control entries that look alike ask for the same. -/
theorem UrlAce.actions_eq_of_alike (h : a.AlikeAce b) (reservationId : Identifier)
    (ambient? : Option String) :
    UrlAce.actions a reservationId ambient? = UrlAce.actions b reservationId ambient? := by
  have hhead := Element.SameHead.of_tag h.tag
  have hchildren : a.children.flatMap (childActions a) = b.children.flatMap (childActions b) := by
    refine flatMap_eq_of_forall₂ h.children fun c d hchild => ?_
    rw [childActions, childActions, hchild.isHttp, hchild.pos, hchild.name,
      Action.forwardElement_eq_of_sameHead hhead hchild]
  have hprincipal : principal? a ambient? = principal? b ambient? := by
    rw [principal?, principal?, Element.authored?_eq_of_tag h.tag]
  have hread : read a reservationId ambient? = read b reservationId ambient? := by
    simp only [read, closingFaults, idOf, rightsOf, hchildren, hprincipal, hhead.pos,
      Element.visitAttributes_eq_of_tag h.tag, Element.authored?_eq_of_tag h.tag]
  rw [actions, actions, hread, hhead.pos]

namespace UrlReservation

theorem isSome_sddlOf?_iff (element : Element) :
    (sddlOf? element).isSome = true ↔ element.IsDescribed := by
  rw [sddlOf?, Element.authored?_eq, Option.isSome_iff_exists]
  simp only [Option.filter_eq_some_iff, decide_eq_true_eq]
  exact Iff.rfl

theorem isAce_eq_of_sameHead (h : c.SameHead d) : isAce c = isAce d := by
  rw [isAce, h.isHttp, h.name, isAce]

theorem idOf_eq_of_tag (h : a.tag = b.tag) (owner : Owner) : idOf a owner = idOf b owner := by
  rw [idOf, idOf, urlOf?, urlOf?, Element.authored?_eq_of_tag h, Element.authored?_eq_of_tag h]

theorem childActions_eq_of_alike (htag : a.tag = b.tag) (h : c.AlikeChild a.IsDescribed d)
    (owner : Owner) : childActions a owner c = childActions b owner d := by
  have hhead := Element.SameHead.of_tag htag
  have hsddl : sddlOf? a = sddlOf? b := Element.authored?_eq_of_tag htag _
  rw [childActions, childActions, ← h.head.isHttp, ← h.head.name, ← h.head.pos, ← hsddl,
    ← idOf_eq_of_tag htag, Action.forwardElement_eq_of_sameHead hhead h.head]
  by_cases hhttp : c.isHttp = true
  · by_cases hname : c.name = Vocabulary.urlAce
    · by_cases hdescribed : (sddlOf? a).isSome = true
      · simp [hhttp, hname, hdescribed]
      · -- only here is the child read
        have hace : isAce c = true := by simp [isAce, hhttp, hname]
        have halike := h.ace hace (by rwa [← isSome_sddlOf?_iff])
        simp [hhttp, hname, hdescribed, UrlAce.actions_eq_of_alike halike]
    · simp [hhttp, hname]
  · simp [hhttp]

/-- **Reservations that look alike ask for the same.** -/
theorem actions_eq_of_alike (h : a.AlikeReservation b) (owner : Owner) :
    actions a owner = actions b owner := by
  have hhead := Element.SameHead.of_tag h.tag
  have hchildren : a.children.flatMap (childActions a owner)
      = b.children.flatMap (childActions b owner) :=
    flatMap_eq_of_forall₂ h.children fun c d hchild => childActions_eq_of_alike h.tag hchild owner
  have hany : a.children.any isAce = b.children.any isAce :=
    any_eq_of_forall₂ h.children fun c d hchild => isAce_eq_of_sameHead hchild.head
  have hurl : urlOf? a = urlOf? b := Element.authored?_eq_of_tag h.tag _
  have hsddl : sddlOf? a = sddlOf? b := Element.authored?_eq_of_tag h.tag _
  have hclosing : closingFaults a = closingFaults b := by
    rw [closingFaults, closingFaults, isUnsecured, isUnsecured, hurl, hsddl, hany, hhead.pos]
  have hread : read a owner = read b owner := by
    rw [read, read, hchildren, hclosing, hurl, hsddl, idOf_eq_of_tag h.tag, handleExistingOf,
      handleExistingOf, Element.visitAttributes_eq_of_tag h.tag, Element.authored?_eq_of_tag h.tag]
  rw [actions, actions, hread, hhead.pos]

end UrlReservation

end Readers

/-! ### Entries -/

namespace Xml

/--
Entries at places that look alike ask for the same, if they look alike
inside as far as they are read.
-/
theorem Place.actions_eq_of_alike {place place' : Place} (h : place.Alike place')
    (hread : place.isRead = true → place.element.AlikeReservation place'.element) :
    place.actions = place'.actions := by
  obtain ⟨⟨before, element⟩, above⟩ := place
  obtain ⟨⟨before', element'⟩, above'⟩ := place'
  have habove : List.Forall₂ Step.Alike above above' := h.above
  cases habove with
  | nil => rfl
  | @cons step step' above above' hstep habove =>
    let parent : Place := ⟨step, above⟩
    let parent' : Place := ⟨step', above'⟩
    have hparent : parent.Alike parent' := .cons hstep habove
    show Registry.http.dispatch parent.element element parent.context
      = Registry.http.dispatch parent'.element element' parent'.context
    rw [← hparent.context]
    refine Registry.http.dispatch_eq_of_sameHead hstep.head h.toStep.head
      fun handler owner hroute => ?_
    have hhandler := Registry.handler?_of_route hroute
    rw [Registry.handler?_http, Option.ite_none_right_eq_some, Option.some.injEq] at hhandler
    rw [← hhandler.2]
    refine UrlReservation.actions_eq_of_alike (hread ?_) owner
    show (Registry.http.route parent.element element parent.context).isHandled = true
    rw [hroute]
    rfl

/-- Everything that the entries in some content ask for. -/
def actionsIn (above : List Step) (before : List Element) (nodes : List Node) : List Action :=
  ((placesIn above before nodes).filter (·.isEntry)).flatMap (·.actions)

theorem actionsIn_of_not_element {above : List Step} {before : List Element} {node : Node}
    {nodes : List Node} (h : node.element? = none) :
    actionsIn above before (node :: nodes) = actionsIn above before nodes := by
  cases node with
  | element tag content => simp at h
  | text data => rw [actionsIn, placesIn_text, actionsIn]
  | remark r => rw [actionsIn, placesIn_remark, actionsIn]

theorem actionsIn_element (above : List Step) (before : List Element) (tag : Tag)
    (content rest : List Node) :
    actionsIn above before (.element tag content :: rest) =
      (if Place.isEntry ⟨⟨before, ⟨tag, content⟩⟩, above⟩ = true
        then Place.actions ⟨⟨before, ⟨tag, content⟩⟩, above⟩ else [])
        ++ actionsIn (⟨before, ⟨tag, content⟩⟩ :: above) [] content
        ++ actionsIn above (before ++ [⟨tag, content⟩]) rest := by
  rw [actionsIn, placesIn_element, List.filter_cons]
  split <;> simp [actionsIn]

/-- Below an element of the extension nothing asks for anything. -/
theorem actionsIn_of_isHttp {step : Step} (h : step.element.isHttp = true) (above : List Step)
    (before : List Element) (nodes : List Node) : actionsIn (step :: above) before nodes = [] := by
  rw [actionsIn, filter_isEntry_eq_nil ⟨step, List.mem_cons_self, h⟩]
  rfl

/-- **Contents that are the same in what is seen of them ask for the same.** -/
theorem AlikeContent.actionsIn_eq {above : List Step} {before : List Element}
    {nodes nodes' : List Node} (h : AlikeContent above before nodes nodes') {above' : List Step}
    {before' : List Element} (habove : List.Forall₂ Step.Alike above above')
    (hbefore : List.Forall₂ Element.SameHead before before') :
    actionsIn above before nodes = actionsIn above' before' nodes' := by
  -- the relation keeps what is around and before in the first contents; in
  -- the second it looks alike
  induction h generalizing above' before' with
  | nil => rfl
  | left hnode _ ih =>
    rw [actionsIn_of_not_element hnode]
    exact ih habove hbefore
  | right hnode _ ih =>
    rw [actionsIn_of_not_element hnode]
    exact ih habove hbefore
  | @outside above before tag content content' rest rest' hhttp _ _ ihContent ihRest =>
    have hhead : Element.SameHead ⟨tag, content⟩ ⟨tag, content'⟩ := .of_tag rfl
    have hstep : Step.Alike ⟨before, ⟨tag, content⟩⟩ ⟨before', ⟨tag, content'⟩⟩ :=
      ⟨hhead, fun _ => rfl, hbefore⟩
    have hentry : ∀ before above content,
        Place.isEntry ⟨⟨before, ⟨tag, content⟩⟩, above⟩ = false := by
      intro before above content
      have hhttp : Element.isHttp ⟨tag, content⟩ = false := hhttp
      rw [Place.isEntry, hhttp, Bool.false_and, Bool.false_and]
    have hbeforeRest := List.rel_append hbefore (.cons hhead .nil)
    rw [actionsIn_element, actionsIn_element, hentry, hentry, if_neg Bool.false_ne_true,
      if_neg Bool.false_ne_true, ihContent (.cons hstep habove) .nil, ihRest habove hbeforeRest]
  | @entry above before tag tag' content content' rest rest' hhttp hhead hread _ ihRest =>
    -- below an entry there are no others, so its content has no say outside of it
    have hhttp' := hhead.isHttp.symm.trans hhttp
    have hstep : Step.Alike ⟨before, ⟨tag, content⟩⟩ ⟨before', ⟨tag', content'⟩⟩ :=
      ⟨hhead, fun h => absurd (hhttp.symm.trans h) Bool.true_eq_false.mp, hbefore⟩
    have hplace : Place.Alike ⟨⟨before, ⟨tag, content⟩⟩, above⟩
        ⟨⟨before', ⟨tag', content'⟩⟩, above'⟩ :=
      .cons hstep habove
    have hbeforeRest := List.rel_append hbefore (.cons hhead .nil)
    rw [actionsIn_element, actionsIn_element, actionsIn_of_isHttp hhttp, actionsIn_of_isHttp hhttp',
      hplace.isEntry, Place.actions_eq_of_alike hplace hread, ihRest habove hbeforeRest]

theorem Document.actions_eq_actionsIn (doc : Document) :
    doc.actions = actionsIn [⟨[], doc.root⟩] [] doc.root.content := by
  rw [actions, entries, places, List.filter_cons_of_neg (by simp [Place.isEntry_ofRoot])]
  rfl

theorem Document.actions_eq_of_alike {doc doc' : Document} (h : doc.Alike doc') :
    doc.actions = doc'.actions := by
  cases h with
  | httpRoot hroot hroot' =>
    rw [actions_eq_actionsIn, actions_eq_actionsIn, actionsIn_of_isHttp hroot,
      actionsIn_of_isHttp hroot']
  | outside hhttp htag hcontent =>
    have hhead := Element.SameHead.of_tag htag
    rw [actions_eq_actionsIn, actions_eq_actionsIn]
    exact hcontent.actionsIn_eq (.cons ⟨hhead, fun _ => htag, .nil⟩ .nil) .nil

end Xml

/-! ### Whole documents -/

/--
**Parts of a document that are not read do not matter.**

Documents that are the same in what is seen of them compile to the same session, whatever character
data and remarks they have.  The same goes for the attributes and the content of any child of a
reservation that is not an access control entry, of one that is if the reservation has a descriptor,
of any child of an access control entry, and of any entry that no reader gets.
-/
theorem unread_parts_ignored {doc doc' : Document} (h : doc.Alike doc') (platform : Platform) :
    compile doc platform = compile doc' platform := by
  rw [compile, Document.actions_eq_of_alike h, compile]

/--
A document with two reservations under a component, the second with a descriptor, and a stray one;
what fills it in is not read.
-/
def filledDocument (blank : List Xml.Node) (attributes : List Xml.Attribute)
    (content : List Xml.Node) : Document :=
  let start : Position := ⟨1, 1⟩
  let own name value : Xml.Attribute := ⟨none, name, value, start⟩
  let http name attributes : Xml.Tag := ⟨some Vocabulary.httpNamespace, name, attributes, start⟩
  let note : Xml.Node := .element ⟨some "urn:other", "Note", attributes, start⟩ content
  let ace : Xml.Node :=
    .element (http "UrlAce" [own "Id" "A", own "SecurityPrincipal" "Everyone"]) (blank ++ [note])
  let secured : Xml.Node :=
    .element (http "UrlReservation" [own "Id" "R", own "Url" "http://+:80/"]) (ace :: blank)
  let described : Xml.Node := .element
    (http "UrlReservation" [own "Id" "S", own "Url" "http://+:81/", own "Sddl" "D:"])
    [.element (http "UrlAce" attributes) content, .element (http "Note" attributes) content]
  let stray : Xml.Node := .element (http "UrlReservation" attributes) content
  let empty : Xml.Node := .element ⟨none, "Component", [], start⟩ []
  ⟨[], ⟨⟨none, "Package", [], start⟩,
    blank ++ [.element ⟨none, "Component", [own "Id" "C"], start⟩ [secured, described],
      stray, empty]⟩, []⟩

/--
It compiles alike, filled in with nothing or with a reservation wherever an element may stand.
-/
theorem unread_parts_ignored_filled :
    let inner : Xml.Tag :=
      ⟨some Vocabulary.httpNamespace, "UrlReservation", [⟨none, "Id", "X", ⟨3, 1⟩⟩], ⟨3, 4⟩⟩
    let doc := filledDocument [] [] []
    let doc' := filledDocument [.text " ", .remark (.comment "")]
      [⟨none, "Sddl", "D:", ⟨2, 2⟩⟩] [.element inner []]
    doc.Alike doc' ∧ compile doc .x86 = compile doc' .x86 ∧
      (compile doc .x86).reservations.keys = [⟨"R"⟩] ∧
      (compile doc .x86).diagnostics.length = 4 := by
  intro inner doc doc'
  have hhead {tag : Xml.Tag} {attributes content content'} :
      Element.SameHead ⟨tag, content⟩ ⟨{ tag with attributes := attributes }, content'⟩ :=
    ⟨rfl, rfl, rfl⟩
  have halike : doc.Alike doc' := by
    refine .outside rfl rfl (.right rfl (.right rfl (.outside rfl ?entries ?rest)))
    case entries =>
      refine .entry rfl hhead (fun _ => ?secured) (.entry rfl hhead (fun _ => ?described) .nil)
      case secured => exact ⟨rfl, .cons ⟨hhead, fun _ _ => ⟨rfl, .cons hhead .nil⟩⟩ .nil⟩
      case described =>
        refine ⟨rfl,
          .cons ⟨hhead, fun _ h => absurd ?_ h⟩ (.cons ⟨hhead, fun h => absurd h (by decide)⟩ .nil)⟩
        exact ⟨"D:", by decide, by decide⟩
    case rest =>
      exact .entry rfl hhead (fun h => absurd h (by decide)) (Xml.AlikeContent.refl _ _ _)
  exact ⟨halike, unread_parts_ignored halike .x86, by decide, by decide⟩

end UrlReservations
