/-
Places in a document.

An element alone does not know where it stands: which elements enclose it and which
siblings come before it.  A place is an element together with both, for itself and
for every element around it up to the root.  All questions about ancestors are
questions about places.

`Document.places` lists every place in document order; `Document.at?` finds one by
counting children; `Place.path` names it.
-/
import UrlReservations.Xml.Tree

namespace UrlReservations.Xml

/--
An element and the elements before it among the children of the same parent, in document order.
-/
structure Step where
  before : List Element
  element : Element

/-- An element with what stands before it, and the same for each element around it, parent first. -/
structure Place extends Step where
  above : List Step

namespace Step

/-- One more than the number of earlier siblings with the same namespace and local name. -/
def index (step : Step) : Nat := (step.before.filter (·.sameName step.element)).length + 1

/-- A step as it appears in a path: the local name and the index in brackets. -/
def segment (step : Step) : String := step.element.name ++ "[" ++ toString step.index ++ "]"

end Step

namespace Place

/-- The place of a root element. -/
def ofRoot (root : Element) : Place := ⟨⟨[], root⟩, []⟩

/-- The steps from the element itself up to the root. -/
def steps (place : Place) : List Step := place.toStep :: place.above

/-- The elements from the element itself up to the root. -/
def ancestors (place : Place) : List Element := place.steps.map (·.element)

/-- The place of the parent. -/
def parent? (place : Place) : Option Place :=
  match place.above with
  | [] => none
  | step :: above => some ⟨step, above⟩

/-- The places of the children, in document order. -/
def children (place : Place) : List Place :=
  let elements := place.element.children
  elements.zipIdx.map fun (child, i) => ⟨⟨elements.take i, child⟩, place.steps⟩

/-- The path of local names and indexes from the root down, such as `/Package[1]/Component[2]`. -/
def path (place : Place) : String :=
  String.join (place.steps.reverse.map fun step => "/" ++ step.segment)

/--
The nearest place, going from the element itself towards the root, whose element satisfies a
condition.
-/
def nearest? (p : Element → Bool) (place : Place) : Option Place :=
  if p place.element then some place else go place.above
where
  /-- The nearest of some steps, each lying above the one before it. -/
  go : List Step → Option Place
    | [] => none
    | step :: above => if p step.element then some ⟨step, above⟩ else go above

end Place

/-! ### All places of a document -/

mutual

/-- The places in a node that has the given elements before it and around it. -/
def Node.places (above : List Step) (before : List Element) : Node → List Place
  | .element tag content =>
    let here : Step := ⟨before, ⟨tag, content⟩⟩
    ⟨here, above⟩ :: placesIn (here :: above) [] content
  | .text _ => []
  | .remark _ => []

/-- The places in content that continues what has the given elements before it and around it. -/
def placesIn (above : List Step) (before : List Element) : List Node → List Place
  | [] => []
  | node :: rest => node.places above before ++ placesIn above (before ++ node.element?.toList) rest

end

/-- Every element of a document in its place, in document order. -/
def Document.places (doc : Document) : List Place :=
  Place.ofRoot doc.root :: placesIn (Place.ofRoot doc.root).steps [] doc.root.content

/--
The place reached from another by choosing children by their number among the element children,
counted from zero.
-/
def Place.descend? (place : Place) : List Nat → Option Place
  | [] => some place
  | i :: rest =>
    match place.children[i]? with
    | none => none
    | some child => child.descend? rest

/-- The place reached from the root by choosing children by number. -/
def Document.at? (doc : Document) (path : List Nat) : Option Place :=
  (Place.ofRoot doc.root).descend? path

end UrlReservations.Xml
