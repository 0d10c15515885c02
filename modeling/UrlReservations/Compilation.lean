/-
Compiling a whole document.

The entries of a document are the elements of the HTTP extension that no other such
element encloses, the root excepted.  Each is dispatched in document order under its
parent, with a context made from where the parent stands; what an entry encloses is
left to whatever reads the entry.
-/
import UrlReservations.Registry

namespace UrlReservations

namespace Xml.Place

/--
Whether a place is that of an entry: an element of the HTTP extension, not the root, enclosed by
no other.
-/
def isEntry (place : Place) : Bool :=
  place.element.isHttp && !place.above.isEmpty && place.above.all fun step => !step.element.isHttp

/--
The identifier of the component a place stands for: the authored one,
or one derived from its path.
-/
def componentId (place : Place) : String :=
  match place.element.nonEmptyAttribute? "Id" with
  | some id => id
  | none => (Identifier.derive .component [some place.path]).text

/-- The component nearest to a place, the place itself included. -/
def component? (place : Place) : Option Place :=
  place.nearest? (Element.isCoreNamed Vocabulary.component)

/-- The name of the service a place stands for, if it is one and has a name. -/
def serviceName? (place : Place) : Option String :=
  if place.element.isCoreNamed Vocabulary.serviceInstall then
    place.element.nonEmptyAttribute? "Name"
  else none

/-- What is known to the extension children of the element at a place. -/
def context (parent : Place) : ParentContext :=
  let ids := match parent.component? with
    | some component =>
      [(Vocabulary.serviceInstallComponentIdKey, component.componentId),
       (Vocabulary.componentIdKey, component.componentId)]
    | none => []
  .ofList (ids ++ parent.serviceName?.toList.map (Vocabulary.serviceInstallNameKey, ·))

/-- What the element at a place asks for when it is dispatched under its parent. -/
def actions (place : Place) : List Action :=
  match place.parent? with
  | none => []
  | some parent => Registry.http.dispatch parent.element place.element parent.context

end Xml.Place

/-- The entries of a document, in document order. -/
def Xml.Document.entries (doc : Xml.Document) : List Xml.Place := doc.places.filter (·.isEntry)

/-- Everything a document asks for. -/
def Xml.Document.actions (doc : Xml.Document) : List Action := doc.entries.flatMap (·.actions)

/-- Compile a document for a platform. -/
def compile (doc : Xml.Document) (platform : Platform) : Session :=
  (Session.start platform).perform .strict doc.actions

end UrlReservations
