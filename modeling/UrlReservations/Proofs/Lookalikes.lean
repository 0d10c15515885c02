/-
Places that look alike.

Where an element stands matters for two things: the path that names a place, and what is known
around an entry.  Paths are made of names, of the elements from the place up to the root and of
those before each.  What is known is read off the attributes of elements of the core schema around
the entry.  So two places agree in both if the elements before and around them have the same names,
and those around them that do not belong to the extension have the same tags (`Place.Alike`).

What the elements before and around a place contain, and what attributes those before it have, is
not seen from there.
-/
import Mathlib.Data.List.Forall2
import UrlReservations.Proofs.Owner
import UrlReservations.Proofs.Places

namespace UrlReservations

section Lists

variable {α β γ : Type} {R : α → β → Prop} {l : List α} {l' : List β}

/--
Lists that are related entry by entry have one image under functions
that agree on related entries.
-/
theorem map_eq_of_forall₂ {f : α → γ} {g : β → γ} (h : List.Forall₂ R l l')
    (hfg : ∀ a b, R a b → f a = g b) : l.map f = l'.map g := by
  rw [← List.forall₂_eq_eq_eq, List.forall₂_map_left_iff, List.forall₂_map_right_iff]
  exact h.imp hfg

theorem flatMap_eq_of_forall₂ {f : α → List γ} {g : β → List γ} (h : List.Forall₂ R l l')
    (hfg : ∀ a b, R a b → f a = g b) : l.flatMap f = l'.flatMap g := by
  rw [List.flatMap_def, List.flatMap_def, map_eq_of_forall₂ h hfg]

theorem any_eq_of_forall₂ {p : α → Bool} {q : β → Bool} (h : List.Forall₂ R l l')
    (hpq : ∀ a b, R a b → p a = q b) : l.any p = l'.any q := by
  have hmap := congrArg (·.any id) (map_eq_of_forall₂ h hpq)
  simpa [List.any_map, Function.comp_def] using hmap

theorem all_eq_of_forall₂ {p : α → Bool} {q : β → Bool} (h : List.Forall₂ R l l')
    (hpq : ∀ a b, R a b → p a = q b) : l.all p = l'.all q := by
  have hmap := congrArg (·.all id) (map_eq_of_forall₂ h hpq)
  simpa [List.all_map, Function.comp_def] using hmap

end Lists

namespace Xml

theorem Element.not_isHttp_of_isCore {element : Element} (h : element.isCore = true) :
    element.isHttp = false := by
  unfold isCore at h
  unfold isHttp
  cases huri : element.uri? with
  | none => rfl
  | some uri =>
    rw [huri] at h
    have hcore : uri = Vocabulary.coreNamespace := by simpa using h
    rw [hcore]
    decide

/-! ### Elements seen from outside -/

/-- Two elements have the same name and namespace, at the same position. -/
structure Element.SameHead (a b : Element) : Prop where
  uri : a.uri? = b.uri?
  name : a.name = b.name
  pos : a.pos = b.pos

namespace Element.SameHead

variable {a b : Element}

@[refl] theorem refl (a : Element) : SameHead a a := ⟨rfl, rfl, rfl⟩

theorem of_tag (h : a.tag = b.tag) : SameHead a b :=
  ⟨congrArg Tag.uri? h, congrArg Tag.name h, congrArg Tag.pos h⟩

variable (h : SameHead a b)
include h

theorem isHttp : a.isHttp = b.isHttp := by rw [Element.isHttp, h.uri, Element.isHttp]

theorem isCore : a.isCore = b.isCore := by rw [Element.isCore, h.uri, Element.isCore]

theorem isCoreNamed (name : String) : a.isCoreNamed name = b.isCoreNamed name := by
  rw [Element.isCoreNamed, h.isCore, h.name, Element.isCoreNamed]

theorem sameName {c d : Element} (h' : SameHead c d) : a.sameName c = b.sameName d := by
  rw [Element.sameName, h.name, h.uri, h'.name, h'.uri, Element.sameName]

end Element.SameHead

/-! ### Steps and places -/

/--
Two steps of places look alike: the elements have the same head, a tag that does not belong to the
extension is the same throughout, and so are the heads of the elements before.
-/
structure Step.Alike (step step' : Step) : Prop where
  head : step.element.SameHead step'.element
  tag : step.element.isHttp = false → step.element.tag = step'.element.tag
  before : List.Forall₂ Element.SameHead step.before step'.before

/-- Two places look alike if all steps from them up to the root do. -/
def Place.Alike (place place' : Place) : Prop := List.Forall₂ Step.Alike place.steps place'.steps

namespace Step.Alike

variable {step step' : Step} (h : Alike step step')
include h

theorem segment : step.segment = step'.segment := by
  have hbefore : List.Forall₂ Element.SameHead (step.before.filter (·.sameName step.element))
      (step'.before.filter (·.sameName step'.element)) :=
    List.rel_filter (fun a b hab => iff_of_eq (congrArg (· = true) (hab.sameName h.head))) h.before
  rw [Step.segment, Step.index, h.head.name, hbefore.length_eq, Step.segment, Step.index]

/-- An element of the core schema has the same attributes. -/
theorem nonEmptyAttribute? (hcore : step.element.isCore = true) (name : String) :
    step.element.nonEmptyAttribute? name = step'.element.nonEmptyAttribute? name := by
  have htag := h.tag (Element.not_isHttp_of_isCore hcore)
  rw [Element.nonEmptyAttribute?, Element.attribute?, Element.attributes, htag,
    Element.nonEmptyAttribute?, Element.attribute?, Element.attributes]

end Step.Alike

namespace Place.Alike

variable {place place' : Place} (h : Alike place place')
include h

theorem toStep : Step.Alike place.toStep place'.toStep := (List.forall₂_cons.mp h).1

theorem above : List.Forall₂ Step.Alike place.above place'.above := (List.forall₂_cons.mp h).2

theorem path : place.path = place'.path := by
  rw [Place.path, List.map_reverse, Place.path, List.map_reverse]
  rw [map_eq_of_forall₂ h fun step step' hstep => congrArg ("/" ++ ·) hstep.segment]

theorem isEntry : place.isEntry = place'.isEntry := by
  have hall : place.above.all (fun step => !step.element.isHttp)
      = place'.above.all fun step => !step.element.isHttp :=
    all_eq_of_forall₂ h.above fun step step' hstep => congrArg (!·) hstep.head.isHttp
  have hempty : place.above.isEmpty = place'.above.isEmpty := by
    rw [Bool.eq_iff_iff, List.isEmpty_iff_length_eq_zero, List.isEmpty_iff_length_eq_zero,
      h.above.length_eq]
  rw [Place.isEntry, h.toStep.head.isHttp, hall, hempty, Place.isEntry]

/-- A component has the same identifier, whether it is authored or derived from the path. -/
theorem componentId (hcore : place.element.isCore = true) :
    place.componentId = place'.componentId := by
  rw [componentId_eq, h.toStep.nonEmptyAttribute? hcore, h.path, componentId_eq]

omit h in
theorem componentId_nearest?_go {steps steps' : List Step}
    (hsteps : List.Forall₂ Step.Alike steps steps') (name : String) :
    (nearest?.go (Element.isCoreNamed name) steps).map Place.componentId
      = (nearest?.go (Element.isCoreNamed name) steps').map Place.componentId := by
  induction hsteps with
  | nil => rfl
  | @cons step step' above above' hstep habove ih =>
    rw [nearest?.go, nearest?.go, hstep.head.isCoreNamed name]
    by_cases hnamed : step'.element.isCoreNamed name = true
    · have halike : Alike ⟨step, above⟩ ⟨step', above'⟩ := .cons hstep habove
      have hcore := (Bool.and_eq_true_iff.mp ((hstep.head.isCoreNamed name).trans hnamed)).1
      rw [if_pos hnamed, if_pos hnamed, Option.map_some, Option.map_some, halike.componentId hcore]
    · rw [if_neg hnamed, if_neg hnamed]
      exact ih

theorem componentId_component? :
    place.component?.map Place.componentId = place'.component?.map Place.componentId := by
  rw [component?, nearest?, component?, nearest?, h.toStep.head.isCoreNamed Vocabulary.component]
  by_cases hnamed : place'.element.isCoreNamed Vocabulary.component = true
  · have hcore :=
      (Bool.and_eq_true_iff.mp ((h.toStep.head.isCoreNamed Vocabulary.component).trans hnamed)).1
    rw [if_pos hnamed, if_pos hnamed, Option.map_some, Option.map_some, h.componentId hcore]
  · rw [if_neg hnamed, if_neg hnamed]
    exact componentId_nearest?_go h.above Vocabulary.component

theorem serviceName? : place.serviceName? = place'.serviceName? := by
  rw [Place.serviceName?, h.toStep.head.isCoreNamed Vocabulary.serviceInstall, Place.serviceName?]
  by_cases hnamed : place'.element.isCoreNamed Vocabulary.serviceInstall = true
  · have hcore :=
      (Bool.and_eq_true_iff.mp
        ((h.toStep.head.isCoreNamed Vocabulary.serviceInstall).trans hnamed)).1
    rw [if_pos hnamed, if_pos hnamed, h.toStep.nonEmptyAttribute? hcore]
  · rw [if_neg hnamed, if_neg hnamed]

/-- **What is known at places that look alike is the same.** -/
theorem context : place.context = place'.context := by
  have hids := h.componentId_component?
  rw [Place.context, h.serviceName?, Place.context]
  cases hcomponent : place.component? <;> cases hcomponent' : place'.component? <;>
    simp_all

end Place.Alike

end Xml

/-! ### Dispatching -/

open Xml (Element)

variable {parent parent' element element' : Element}

theorem Action.forwardElement_eq_of_sameHead (hparent : parent.SameHead parent')
    (helement : element.SameHead element') :
    forwardElement parent element = forwardElement parent' element' := by
  simp only [forwardElement, ExtensionItem.ofElement, hparent.name, helement.uri, helement.name,
    helement.pos]

namespace Registry

variable (registry : Registry)

/-- What becomes of an element is decided by what is seen of it and of its parent. -/
theorem route_eq_of_sameHead (hparent : parent.SameHead parent')
    (helement : element.SameHead element') (context : ParentContext) :
    registry.route parent element context = registry.route parent' element' context := by
  rw [RegistryOf.route, helement.isHttp, hparent.isCore, hparent.name, helement.name,
    RegistryOf.route]

/-- What an element asks for is too, unless it is read. -/
theorem dispatch_eq_of_sameHead (hparent : parent.SameHead parent')
    (helement : element.SameHead element') {context : ParentContext}
    (hread : ∀ handler owner, registry.route parent element context = .handled handler owner →
      handler element owner = handler element' owner) :
    registry.dispatch parent element context = registry.dispatch parent' element' context := by
  rw [dispatch, dispatch, ← registry.route_eq_of_sameHead hparent helement context]
  cases hroute : registry.route parent element context with
  | foreign => simp only [Action.forwardElement_eq_of_sameHead hparent helement]
  | unexpected => simp only [hparent.name, helement.name, helement.pos]
  | unresolved message => simp only [hparent.pos]
  | handled handler owner => exact hread handler owner hroute

end Registry

end UrlReservations
