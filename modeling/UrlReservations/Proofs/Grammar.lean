/-
What a well-formed document is, and what it stands for.

The compiler is a walk: it dispatches entries, visits attributes in order, and settles each
row when its turn comes.  This file says the same of a document without any walk.  The
grammar (`Document.WellFormed`) is a condition on the elements as they stand, and the
translation (`Document.translation?`) reads every row off the entry it belongs to.  Nothing
here mentions a session, an action or a diagnostic, and nothing is proved here but that the
grammar can be checked of a given document; the files that follow show that the compiler
accepts exactly this grammar and delivers exactly these rows.

Attributes of the core elements around an entry are read by a parameter.  The compiler takes
the first attribute of a local name whatever its namespace (`Element.nonEmptyAttribute?`),
which is not the same as taking the one without a namespace (`Element.unqualified?`), and the
difference can be told from the rows.
-/
import UrlReservations.Compilation

namespace UrlReservations

/-- The references a compilation makes once it has a reservation. -/
def Platform.references (platform : Platform) : List Reference :=
  [⟨"CustomAction", platform.scheduledActions.install⟩,
    ⟨"CustomAction", platform.scheduledActions.uninstall⟩]

namespace Xml

namespace Element

/-! ### What is authored on an element -/

/-- The attributes of an element that are interpreted here. -/
def ownAttributes (element : Element) : List Attribute := element.attributes.filter (·.isOwn)

/-- The value of the first of these with a local name. -/
def own? (element : Element) (name : String) : Option String :=
  (element.ownAttributes.find? (·.name = name)).map (·.value)

/-- The access control entries directly inside an element. -/
def aces (element : Element) : List Element := element.children.filter UrlReservation.isAce

/--
The value of the first attribute with a local name and without a namespace, unless it is empty.
-/
def unqualified? (element : Element) (name : String) : Option String :=
  ((element.attributes.find? fun a => a.uri? = none && a.name = name).map (·.value)).filter (· ≠ "")

/-- The attributes of an element have distinct names, all of them known, and none is empty. -/
structure WellAuthored (names : List String) (element : Element) : Prop where
  distinct : (element.ownAttributes.map (·.name)).Nodup
  known : ∀ a ∈ element.ownAttributes, a.name ∈ names
  nonempty : ∀ a ∈ element.ownAttributes, a.value ≠ ""

instance (names : List String) (element : Element) : Decidable (element.WellAuthored names) :=
  decidable_of_iff
    ((element.ownAttributes.map (·.name)).Nodup ∧ (∀ a ∈ element.ownAttributes, a.name ∈ names) ∧
      ∀ a ∈ element.ownAttributes, a.value ≠ "")
    ⟨fun ⟨distinct, known, nonempty⟩ => ⟨distinct, known, nonempty⟩,
      fun h => ⟨h.distinct, h.known, h.nonempty⟩⟩

/-- An access control entry as the grammar wants it, under a principal that may be ambient there. -/
structure WellFormedAce (ambient? : Option String) (ace : Element) : Prop
    extends WellAuthored ["Id", "SecurityPrincipal", "Rights"] ace where
  id : ∀ id, ace.own? "Id" = some id → Identifier.isLegal id = true
  rights : ∀ token, ace.own? "Rights" = some token → token ∈ Choice.tokens Rights
  principal : (ace.own? "SecurityPrincipal").isSome ∨ ambient?.isSome
  /-- Nothing of the extension stands inside an entry. -/
  children : ∀ child ∈ ace.children, child.isHttp = false

instance (ambient? : Option String) (ace : Element) : Decidable (ace.WellFormedAce ambient?) :=
  decidable_of_iff
    (ace.WellAuthored ["Id", "SecurityPrincipal", "Rights"] ∧
      (∀ id ∈ ace.own? "Id", Identifier.isLegal id = true) ∧
      (∀ token ∈ ace.own? "Rights", token ∈ Choice.tokens Rights) ∧
      ((ace.own? "SecurityPrincipal").isSome ∨ ambient?.isSome) ∧
      ∀ child ∈ ace.children, child.isHttp = false)
    ⟨fun ⟨authored, id, rights, principal, children⟩ =>
        ⟨authored, id, rights, principal, children⟩,
      fun h => ⟨h.toWellAuthored, h.id, h.rights, h.principal, h.children⟩⟩

/-- A reservation as the grammar wants it, under a principal that may be ambient there. -/
structure WellFormedReservation (ambient? : Option String) (element : Element) : Prop
    extends WellAuthored ["Id", "HandleExisting", "Sddl", "Url"] element where
  url : (element.own? "Url").isSome
  id : ∀ id, element.own? "Id" = some id → Identifier.isLegal id = true
  handleExisting : ∀ token, element.own? "HandleExisting" = some token →
    token ∈ Choice.tokens HandleExisting
  /-- Of the extension, only access control entries stand inside a reservation. -/
  children : ∀ child ∈ element.children, child.isHttp = true → child.name = "UrlAce"
  /-- There is a descriptor exactly if there is no access control entry. -/
  secured : (element.own? "Sddl").isSome ↔ element.aces = []
  aces : ∀ ace ∈ element.aces, WellFormedAce ambient? ace

instance (ambient? : Option String) (element : Element) :
    Decidable (element.WellFormedReservation ambient?) :=
  decidable_of_iff
    (element.WellAuthored ["Id", "HandleExisting", "Sddl", "Url"] ∧ (element.own? "Url").isSome ∧
      (∀ id ∈ element.own? "Id", Identifier.isLegal id = true) ∧
      (∀ token ∈ element.own? "HandleExisting", token ∈ Choice.tokens HandleExisting) ∧
      (∀ child ∈ element.children, child.isHttp = true → child.name = "UrlAce") ∧
      ((element.own? "Sddl").isSome ↔ element.aces = []) ∧
      ∀ ace ∈ element.aces, ace.WellFormedAce ambient?)
    ⟨fun ⟨authored, url, id, handleExisting, children, secured, aces⟩ =>
        ⟨authored, url, id, handleExisting, children, secured, aces⟩,
      fun h => ⟨h.toWellAuthored, h.url, h.id, h.handleExisting, h.children, h.secured, h.aces⟩⟩

end Element

namespace Place

/-! ### What stands around an entry -/

/-- The places around a place, parent first. -/
def enclosing (place : Place) : List Place :=
  go place.above
where
  /-- The places of some steps, each lying above the one before it. -/
  go : List Step → List Place
    | [] => []
    | step :: above => ⟨step, above⟩ :: go above

/-- The nearest component of the core schema around an entry. -/
def owningComponent? (entry : Place) : Option Place :=
  entry.enclosing.find? (·.element.isCoreNamed "Component")

/--
An entry is a reservation directly inside a component or a service,
and somewhere inside a component.
-/
structure WellPlaced (entry : Place) : Prop where
  name : entry.element.name = "UrlReservation"
  parent : ∃ parent, entry.parent? = some parent ∧
    (parent.element.isCoreNamed "Component" = true ∨
      parent.element.isCoreNamed "ServiceInstall" = true)
  component : ∃ place ∈ entry.enclosing, place.element.isCoreNamed "Component" = true

instance (entry : Place) : Decidable entry.WellPlaced :=
  decidable_of_iff
    (entry.element.name = "UrlReservation" ∧
      (∃ parent ∈ entry.parent?, parent.element.isCoreNamed "Component" = true ∨
        parent.element.isCoreNamed "ServiceInstall" = true) ∧
      ∃ place ∈ entry.enclosing, place.element.isCoreNamed "Component" = true)
    ⟨fun ⟨name, parent, component⟩ => ⟨name, parent, component⟩,
      fun h => ⟨h.name, h.parent, h.component⟩⟩

/-! ### The rows of an entry -/

variable (read : Element → String → Option String)

/--
The identifier of the component an entry belongs to: the authored one,
or one derived from its path.
-/
def owningComponentId? (entry : Place) : Option String :=
  entry.owningComponent?.map fun component =>
    (read component.element "Id").getD (Identifier.derive .component [some component.path]).text

/--
The account of the service an entry stands directly inside, if that is a service and has a name.
-/
def ambientPrincipal? (entry : Place) : Option String :=
  (entry.parent?.filter (·.element.isCoreNamed "ServiceInstall")).bind fun parent =>
    (read parent.element "Name").map ("NT SERVICE\\" ++ ·)

/-- The row an entry stands for, if everything the row needs is there. -/
def reservation? (entry : Place) : Option UrlReservation := do
  let componentId ← entry.owningComponentId? read
  let url ← entry.element.own? "Url"
  let handleExisting ← (entry.element.own? "HandleExisting").elim (some HandleExisting.replace)
    Choice.ofToken?
  let id := (entry.element.own? "Id").elim
    (.derive .urlReservation [some componentId, entry.ambientPrincipal? read, some url])
    Identifier.mk
  return ⟨id, handleExisting, entry.element.own? "Sddl", url, componentId⟩

end Place

/--
The row an access control entry of a reservation stands for, under a
principal that may be ambient there.
-/
def Element.aceRow? (reservationId : Identifier) (ambient? : Option String) (ace : Element) :
    Option UrlAce := do
  let principal ← (ace.own? "SecurityPrincipal").or ambient?
  let rights ← (ace.own? "Rights").elim (some Rights.all) Choice.ofToken?
  let id := (ace.own? "Id").elim
    (.derive .urlAce [some reservationId.text, some principal, ace.own? "Rights"]) Identifier.mk
  return ⟨id, reservationId, principal, rights⟩

/-- The rows that the access control entries of an entry stand for. -/
def Place.aces? (read : Element → String → Option String) (entry : Place) :
    Option (List UrlAce) := do
  let reservation ← entry.reservation? read
  entry.element.aces.mapM (Element.aceRow? reservation.id (entry.ambientPrincipal? read))

namespace Document

variable (read : Element → String → Option String)

/-- The records a document stands for on a platform: the rows of its entries, in document order. -/
def translation? (doc : Document) (platform : Platform) : Option RecordSet := do
  let reservations ← doc.entries.mapM (Place.reservation? read)
  let aces ← doc.entries.mapM (Place.aces? read)
  return ⟨reservations, aces.flatten, if reservations.isEmpty then [] else platform.references⟩

/-- A document whose entries all follow the grammar, and whose rows have distinct identifiers. -/
structure WellFormed (doc : Document) : Prop where
  placed : ∀ entry ∈ doc.entries, entry.WellPlaced
  reservations : ∀ entry ∈ doc.entries,
    entry.element.WellFormedReservation (entry.ambientPrincipal? read)
  reservationIds : ((doc.entries.filterMap (Place.reservation? read)).map (·.id)).Nodup
  aceIds : ((doc.entries.filterMap (Place.aces? read)).flatten.map (·.id)).Nodup

instance (doc : Document) : Decidable (doc.WellFormed read) :=
  decidable_of_iff
    ((∀ entry ∈ doc.entries, entry.WellPlaced) ∧
      (∀ entry ∈ doc.entries,
        entry.element.WellFormedReservation (entry.ambientPrincipal? read)) ∧
      ((doc.entries.filterMap (Place.reservation? read)).map (·.id)).Nodup ∧
      ((doc.entries.filterMap (Place.aces? read)).flatten.map (·.id)).Nodup)
    ⟨fun ⟨placed, reservations, reservationIds, aceIds⟩ =>
        ⟨placed, reservations, reservationIds, aceIds⟩,
      fun h => ⟨h.placed, h.reservations, h.reservationIds, h.aceIds⟩⟩

end Document

end Xml

end UrlReservations
