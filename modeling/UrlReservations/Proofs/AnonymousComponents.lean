/-
Components without identifiers.

A component for which no `Id` is found gets an identifier derived from its path, so two of them are
told apart as far as their paths are.  A path counts an element among the siblings of its namespace
and local name, but it shows the local name only.  As both no namespace and that of the schema
count as core, two of them may well have the same path, where they or elements around them differ
in that, and then their rows belong to one component.  With the same namespaces along their paths,
two of them share an identifier only if the digest collides.

`Id` is looked for in every namespace (`Element.nonEmptyAttribute?`).  A component whose only `Id`
is one of another extension is identified by that, and not by its path, so it is not one of these;
two such components share an identifier wherever they stand, if the values are the same.
-/
import UrlReservations.Proofs.Acceptance
import UrlReservations.Proofs.Derivation
import UrlReservations.Proofs.Names

namespace UrlReservations

open Xml (Element Place Document)

namespace Xml.Place

/--
A place of a component of the core schema for which no identifier is found: its first attribute
`Id`, of whatever namespace, is missing or empty.
-/
structure IsAnonymousComponent (place : Place) : Prop where
  core : place.element.isCoreNamed "Component" = true
  anonymous : place.element.nonEmptyAttribute? "Id" = none

/-- Two places have the same path, or the digest collides on their paths. -/
def PathsAgree (place other : Place) : Prop :=
  place.path = other.path ∨
    Sha256.Collide (Identifier.encodeParts [some place.path])
      (Identifier.encodeParts [some other.path])

variable {place other : Place}

theorem IsAnonymousComponent.componentId_eq (h : place.IsAnonymousComponent) :
    place.componentId = (Identifier.derive .component [some place.path]).text := by
  rw [Place.componentId_eq, h.anonymous, Option.getD_none]

/-- Two components without identifiers are given the same one exactly if their paths agree. -/
theorem IsAnonymousComponent.componentId_eq_iff (h : place.IsAnonymousComponent)
    (h' : other.IsAnonymousComponent) :
    place.componentId = other.componentId ↔ place.PathsAgree other := by
  rw [h.componentId_eq, h'.componentId_eq, PathsAgree,
    ← @Identifier.derive_singleton_eq_iff .component]
  exact ⟨fun htext => congrArg Identifier.mk htext, congrArg Identifier.text⟩

/-- Elements directly inside such a component are told its identifier. -/
theorem IsAnonymousComponent.get?_componentId (h : place.IsAnonymousComponent) :
    place.context.get? Vocabulary.componentIdKey = some place.componentId := by
  have hcore : place.element.isCoreNamed Vocabulary.component = true := h.core
  have hcomponent : place.component? = some place := by
    rw [component?, nearest?, if_pos hcore]
  rw [Place.get?_componentId place (.inl rfl), hcomponent, Option.map_some]

theorem IsAnonymousComponent.get?_eq_iff (h : place.IsAnonymousComponent)
    (h' : other.IsAnonymousComponent) :
    place.context.get? Vocabulary.componentIdKey = other.context.get? Vocabulary.componentIdKey ↔
      place.PathsAgree other := by
  rw [h.get?_componentId, h'.get?_componentId, Option.some_inj, h.componentId_eq_iff h']

/-- Places of a document with the same path and the same namespaces along it are one place. -/
theorem uris_ne_of_path_eq {doc : Document} (hnames : doc.PlainNames) (hplace : place ∈ doc.places)
    (hother : other ∈ doc.places) (hne : place ≠ other) (hpath : place.path = other.path) :
    place.uris ≠ other.uris := by
  intro huris
  have hlabels :=
    (labels_eq_iff (hnames.of_mem_steps hplace) (hnames.of_mem_steps hother)).mpr ⟨hpath, huris⟩
  exact hne (List.inj_on_of_nodup_map doc.nodup_labels hplace hother hlabels)

/-- A row that an entry offers belongs to the component nearest around the entry. -/
theorem componentId_of_mem_actions {entry component : Place} (hentry : entry.isEntry = true)
    (hcomponent : entry.owningComponent? = some component) {row : UrlReservation}
    (hrow : row ∈ entry.actions.filterMap Action.reservation?) :
    row.componentId = component.componentId := by
  by_cases hplaced : entry.WellPlaced
  · obtain ⟨owner, howner, hactions⟩ := actions_of_wellPlaced hentry hplaced
    have hid : owner.componentId = component.componentId := by
      rw [owner?, owningComponentId?, hcomponent, Option.map_some, Option.map_some,
        ← Place.componentId_eq, Option.some_inj] at howner
      rw [← howner]
    rw [hactions, UrlReservation.reservations_actions, Option.mem_toList] at hrow
    obtain ⟨url, -, rfl⟩ := Option.map_eq_some_iff.mp hrow
    exact hid
  · -- an entry that is not well placed offers no row
    obtain ⟨pos, message, -, hactions⟩ := actions_of_not_wellPlaced hentry hplaced
    rw [hactions] at hrow
    simp at hrow

/-- Rows under such components belong to one component exactly if the paths agree. -/
theorem IsAnonymousComponent.row_eq_iff (h : place.IsAnonymousComponent)
    (h' : other.IsAnonymousComponent) {doc : Document} {entry entry' : Place}
    (hentry : entry ∈ doc.entries) (hentry' : entry' ∈ doc.entries)
    (howner : entry.owningComponent? = some place) (howner' : entry'.owningComponent? = some other)
    {row row' : UrlReservation} (hrow : row ∈ entry.actions.filterMap Action.reservation?)
    (hrow' : row' ∈ entry'.actions.filterMap Action.reservation?) :
    row.componentId = row'.componentId ↔ place.PathsAgree other := by
  rw [componentId_of_mem_actions (Document.isEntry_of_mem_entries hentry) howner hrow,
    componentId_of_mem_actions (Document.isEntry_of_mem_entries hentry') howner' hrow',
    h.componentId_eq_iff h']

end Xml.Place

/-! ### Documents with two components -/

/-- A component without an identifier that holds a reservation. -/
def unnamedComponent (uri? : Option String) (reservationId : String) : Element :=
  let start : Position := ⟨1, 1⟩
  let own name value : Xml.Attribute := ⟨none, name, value, start⟩
  let reservation := ⟨some Vocabulary.httpNamespace, "UrlReservation",
    [own "Id" reservationId, own "Url" "http://+:80/", own "Sddl" "D:"], start⟩
  ⟨⟨uri?, "Component", [], start⟩, [.element reservation []]⟩

/-- Two such components in one package, the first without a namespace. -/
def twoComponents (uri? : Option String) : Document :=
  let first := unnamedComponent none "A"
  let second := unnamedComponent uri? "B"
  ⟨[], ⟨⟨none, "Package", [], ⟨1, 1⟩⟩,
    [.element first.tag first.content, .element second.tag second.content]⟩, []⟩

def firstComponent (uri? : Option String) : Place :=
  ⟨⟨[], unnamedComponent none "A"⟩, [⟨[], (twoComponents uri?).root⟩]⟩

def secondComponent (uri? : Option String) : Place :=
  ⟨⟨[unnamedComponent none "A"], unnamedComponent uri? "B"⟩, [⟨[], (twoComponents uri?).root⟩]⟩

theorem firstComponent_mem (uri? : Option String) :
    firstComponent uri? ∈ (twoComponents uri?).places :=
  List.mem_of_getElem? (i := 1) rfl

theorem secondComponent_mem (uri? : Option String) :
    secondComponent uri? ∈ (twoComponents uri?).places :=
  List.mem_of_getElem? (i := 3) rfl

theorem firstComponent_ne_secondComponent (uri? : Option String) :
    firstComponent uri? ≠ secondComponent uri? := by
  intro h
  have hlength := congrArg (fun place : Place => place.before.length) h
  simp [firstComponent, secondComponent] at hlength

theorem isAnonymousComponent_firstComponent (uri? : Option String) :
    (firstComponent uri?).IsAnonymousComponent :=
  ⟨rfl, rfl⟩

theorem isAnonymousComponent_secondComponent {uri? : Option String}
    (h : uri? = none ∨ uri? = some Vocabulary.coreNamespace) :
    (secondComponent uri?).IsAnonymousComponent := by
  rcases h with rfl | rfl
  · exact ⟨by decide, rfl⟩
  · exact ⟨by decide, rfl⟩

/--
**Two components for which no identifier is found share one exactly if their paths agree.**

Rows under them belong to one component exactly then, too.  The paths of two components may be
the same, but then the namespaces along them differ.  Components whose `Id` is found in another
namespace are not meant.  Names are plain in every document that was read
(`Document.plainNames_of_read`).
-/
theorem anonymousComponents_shareId_iff {doc : Document} (hnames : doc.PlainNames)
    {place other : Place} (hplace : place ∈ doc.places) (hother : other ∈ doc.places)
    (hne : place ≠ other) (h : place.IsAnonymousComponent) (h' : other.IsAnonymousComponent) :
    (place.context.get? Vocabulary.componentIdKey = other.context.get? Vocabulary.componentIdKey ↔
        place.PathsAgree other) ∧
      (∀ entry ∈ doc.entries, ∀ entry' ∈ doc.entries,
        entry.owningComponent? = some place → entry'.owningComponent? = some other →
        ∀ row ∈ entry.actions.filterMap Action.reservation?,
          ∀ row' ∈ entry'.actions.filterMap Action.reservation?,
          row.componentId = row'.componentId ↔ place.PathsAgree other) ∧
      (place.path = other.path → place.uris ≠ other.uris) := by
  refine ⟨h.get?_eq_iff h', ?_, Place.uris_ne_of_path_eq hnames hplace hother hne⟩
  intro entry hentry entry' hentry' howner howner' row hrow row' hrow'
  exact h.row_eq_iff h' hentry hentry' howner howner' hrow hrow'

theorem anonymousComponents_shareId_iff_unqualified :
    (twoComponents none).PlainNames ∧ firstComponent none ∈ (twoComponents none).places ∧
      secondComponent none ∈ (twoComponents none).places ∧
      firstComponent none ≠ secondComponent none ∧
      (firstComponent none).IsAnonymousComponent ∧ (secondComponent none).IsAnonymousComponent ∧
      (firstComponent none).path = "/Package[1]/Component[1]" ∧
      (secondComponent none).path = "/Package[1]/Component[2]" ∧
      ((firstComponent none).context.get? Vocabulary.componentIdKey
          = (secondComponent none).context.get? Vocabulary.componentIdKey ↔
        (firstComponent none).PathsAgree (secondComponent none)) :=
  ⟨by decide, firstComponent_mem none, secondComponent_mem none,
    firstComponent_ne_secondComponent none, isAnonymousComponent_firstComponent none,
    isAnonymousComponent_secondComponent (.inl rfl), by decide, by decide,
    (@anonymousComponents_shareId_iff (twoComponents none) (by decide) _ _ (firstComponent_mem none)
      (secondComponent_mem none) (firstComponent_ne_secondComponent none)
      (isAnonymousComponent_firstComponent none)
      (isAnonymousComponent_secondComponent (.inl rfl))).1⟩

/--
In a document that was read it takes different namespaces along the paths, or a collision: where
the namespaces are the same, two such components and the rows under them are told apart unless the
digest collides.
-/
theorem anonymousComponents_collide_of_read {text : String} {doc : Document}
    (hread : Document.read text = .ok doc) {place other : Place} (hplace : place ∈ doc.places)
    (hother : other ∈ doc.places) (hne : place ≠ other) (h : place.IsAnonymousComponent)
    (h' : other.IsAnonymousComponent) (huris : place.uris = other.uris) :
    let collide := Sha256.Collide (Identifier.encodeParts [some place.path])
      (Identifier.encodeParts [some other.path])
    (place.context.get? Vocabulary.componentIdKey = other.context.get? Vocabulary.componentIdKey ↔
        collide) ∧
      ∀ entry ∈ doc.entries, ∀ entry' ∈ doc.entries,
        entry.owningComponent? = some place → entry'.owningComponent? = some other →
        ∀ row ∈ entry.actions.filterMap Action.reservation?,
          ∀ row' ∈ entry'.actions.filterMap Action.reservation?,
            row.componentId = row'.componentId ↔ collide := by
  intro collide
  have hnames := Document.plainNames_of_read hread
  have hpaths : place.PathsAgree other ↔ collide :=
    or_iff_right fun hpath => Place.uris_ne_of_path_eq hnames hplace hother hne hpath huris
  refine ⟨(h.get?_eq_iff h').trans hpaths, ?_⟩
  intro entry hentry entry' hentry' howner howner' row hrow row' hrow'
  exact (h.row_eq_iff h' hentry hentry' howner howner' hrow hrow').trans hpaths

/--
With the namespace of the schema on the second component, both are the first of their path, and
the rows under them belong to one component.
-/
theorem anonymousComponents_not_told_apart :
    let uri? := some Vocabulary.coreNamespace
    (firstComponent uri? ∈ (twoComponents uri?).places ∧
      secondComponent uri? ∈ (twoComponents uri?).places) ∧
      firstComponent uri? ≠ secondComponent uri? ∧
      ((firstComponent uri?).IsAnonymousComponent ∧ (secondComponent uri?).IsAnonymousComponent) ∧
      (firstComponent uri?).context.get? Vocabulary.componentIdKey
        = (secondComponent uri?).context.get? Vocabulary.componentIdKey ∧
      ¬ Sha256.Collide (Identifier.encodeParts [some (firstComponent uri?).path])
        (Identifier.encodeParts [some (secondComponent uri?).path]) ∧
      (compile (twoComponents uri?) .x86).records.urlReservations.map (·.componentId)
        = List.replicate 2 (Identifier.derive .component
          [some "/Package[1]/Component[1]"]).text := by
  have h := isAnonymousComponent_firstComponent (some Vocabulary.coreNamespace)
  have h' := isAnonymousComponent_secondComponent (.inr (Eq.refl (some Vocabulary.coreNamespace)))
  have hpath : (firstComponent (some Vocabulary.coreNamespace)).path
      = (secondComponent (some Vocabulary.coreNamespace)).path := by decide
  refine ⟨⟨firstComponent_mem _, secondComponent_mem _⟩, firstComponent_ne_secondComponent _,
    ⟨h, h'⟩, ?_, ?_, rfl⟩
  · rw [h.get?_componentId, h'.get?_componentId, (h.componentId_eq_iff h').mpr (.inl hpath)]
  · rw [hpath]
    exact fun hcollide => hcollide.1 rfl

end UrlReservations
