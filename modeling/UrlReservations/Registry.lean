/-
Which elements are read, and under which parents.

A registry maps names of parents to how the owner of their extension children is found,
and names of extension elements to their handlers.  Registering a name again replaces
what was registered before.

`RegistryOf.route` decides what becomes of an element under a parent, and never looks into a
handler to do so.  The handlers of the compiler read an element into actions, and
`Registry.dispatch` turns the decision into actions too.
-/
import UrlReservations.ParentContext

namespace UrlReservations

/-- How the owner of the extension children of a parent is found. -/
abbrev ParentHandler := ParentContext → Except Message Owner

/-- How an extension element is read on behalf of an owner. -/
abbrev ElementHandler := Xml.Element → Owner → List Action

/--
The parents and extension elements that are known by name, those registered last first, with
handlers of any kind for the elements.
-/
structure RegistryOf (η : Type) where
  parents : List (String × ParentHandler)
  handlers : List (String × η)

/-- A registry whose handlers read elements into actions. -/
abbrev Registry := RegistryOf ElementHandler

/-- What becomes of an element under a parent. -/
inductive Route (η : Type) where
  /-- The element belongs to another extension. -/
  | foreign
  /-- The element may not stand there. -/
  | unexpected
  /-- The parent lacks something its extension children need. -/
  | unresolved (message : Message)
  /-- The element is handled on behalf of an owner. -/
  | handled (handler : η) (owner : Owner)

namespace RegistryOf

variable {η : Type}

/-- Register a parent. -/
def registerParent (registry : RegistryOf η) (name : String) (handler : ParentHandler) :
    RegistryOf η :=
  { registry with parents := (name, handler) :: registry.parents }

/-- Register an extension element. -/
def register (registry : RegistryOf η) (name : String) (handler : η) : RegistryOf η :=
  { registry with handlers := (name, handler) :: registry.handlers }

/-- What was last registered for a parent. -/
def parent? (registry : RegistryOf η) (name : String) : Option ParentHandler :=
  registry.parents.lookup name

/-- What was last registered for an extension element. -/
def handler? (registry : RegistryOf η) (name : String) : Option η := registry.handlers.lookup name

/--
What becomes of an element under a parent: only elements of the HTTP extension are handled, and
only under registered parents of the core schema.
-/
def route (registry : RegistryOf η) (parent element : Xml.Element) (context : ParentContext) :
    Route η :=
  if !element.isHttp then .foreign
  else if !parent.isCore then .unexpected
  else match registry.parent? parent.name, registry.handler? element.name with
    | some resolve, some handler =>
      match resolve context with
      | .ok owner => .handled handler owner
      | .error message => .unresolved message
    | _, _ => .unexpected

end RegistryOf

namespace Registry

/-- The registry that knows no name. -/
def empty : Registry := ⟨[], []⟩

/-- What an element under a parent asks for. -/
def dispatch (registry : Registry) (parent element : Xml.Element) (context : ParentContext) :
    List Action :=
  match registry.route parent element context with
  | .foreign => [.forwardElement parent element]
  | .unexpected => [.report ⟨element.pos, .unexpectedElement parent.name element.name⟩]
  | .unresolved message => [.report ⟨parent.pos, message⟩]
  | .handled handler owner => handler element owner

/--
The registry of the HTTP extension: reservations are read under components and services, and
entries only inside reservations.
-/
def http : Registry :=
  ((empty.registerParent Vocabulary.component Owner.ofComponent).registerParent
    Vocabulary.serviceInstall Owner.ofServiceInstall).register
    Vocabulary.urlReservation UrlReservation.actions

end Registry

end UrlReservations
