/-
Reading `UrlReservation` elements.

A reservation names a URL and is secured in exactly one of two ways: by a descriptor
in its `Sddl` attribute, or by the entries among its children.  Its identifier does
not depend on its children, so the entries can refer to it although the row of the
reservation is emitted after theirs.
-/
import UrlReservations.Ace

namespace UrlReservations

/-- The component a row belongs to, and the principal that entries have unless they name one. -/
structure Owner where
  componentId : String
  principal? : Option String
  deriving DecidableEq

/-- The attributes of a reservation. -/
inductive ReservationAttribute where
  | id
  | handleExisting
  | sddl
  | url
  deriving DecidableEq

namespace ReservationAttribute

/-- All attributes of a reservation. -/
def all : List ReservationAttribute := [id, handleExisting, sddl, url]

/-- The local name of an attribute. -/
def name : ReservationAttribute → String
  | id => "Id"
  | handleExisting => "HandleExisting"
  | sddl => "Sddl"
  | url => "Url"

instance : AttributeSet ReservationAttribute := ⟨name, fun text => all.find? (·.name = text)⟩

instance : LawfulAttributeSet ReservationAttribute where
  ofName?_eq_some {text kind} := by
    constructor
    · intro h
      have found : all.find? (·.name = text) = some kind := h
      have matched : kind.name = text := by simpa using List.find?_some found
      exact matched
    · rintro rfl
      cases kind <;> rfl

/-- What is reported about the value of an attribute. -/
def faults : ReservationAttribute → AttributeValue → List Diagnostic
  | id, v => v.identifierFaults
  | handleExisting, v => if v.value = "" then v.textFaults else v.choiceFaults HandleExisting
  | sddl, v => v.textFaults
  | url, v => v.textFaults

end ReservationAttribute

namespace UrlReservation

/-- The descriptor authored for a reservation. -/
def sddlOf? (element : Xml.Element) : Option String := element.authored? ReservationAttribute.sddl

/-- The URL authored for a reservation. -/
def urlOf? (element : Xml.Element) : Option String := element.authored? ReservationAttribute.url

/-- What happens to an existing reservation: what the authored word says, if it is legal. -/
def handleExistingOf (element : Xml.Element) : HandleExisting :=
  ((element.authored? ReservationAttribute.handleExisting).bind Choice.ofToken?).getD default

/-- The identifier of a reservation: the authored one, or one derived from its owner and its URL. -/
def idOf (element : Xml.Element) (owner : Owner) : Identifier :=
  match element.authored? ReservationAttribute.id with
  | some id => ⟨id⟩
  | none => .derive .urlReservation [some owner.componentId, owner.principal?, urlOf? element]

/-- Whether a child is an access control entry. -/
def isAce (child : Xml.Element) : Bool := child.isHttp && child.name = Vocabulary.urlAce

/--
What a reservation asks for about one of its children: entries are read, unless there is a
descriptor.
-/
def childActions (element : Xml.Element) (owner : Owner) (child : Xml.Element) : List Action :=
  if !child.isHttp then [.forwardElement element child]
  else if child.name ≠ Vocabulary.urlAce then
    [.report ⟨child.pos, .unexpectedElement Vocabulary.urlReservation child.name⟩]
  else if (sddlOf? element).isSome then
    [.report ⟨child.pos, .illegalParentAttributeWhenNested Vocabulary.urlReservation
      ReservationAttribute.sddl.name Vocabulary.urlAce⟩]
  else UrlAce.actions child (idOf element owner) owner.principal?

/-- Whether neither a descriptor nor an entry secures a reservation. -/
def isUnsecured (element : Xml.Element) : Bool :=
  (sddlOf? element).isNone && !element.children.any isAce

/--
What is reported at the end of a reservation: that it has no URL, and that nothing secures it.
-/
def closingFaults (element : Xml.Element) : List Diagnostic :=
  (if (urlOf? element).isNone then
      [⟨element.pos, .expectedAttribute Vocabulary.urlReservation ReservationAttribute.url.name⟩]
    else [])
  ++ (if isUnsecured element then [⟨element.pos, .noSecuritySpecified⟩] else [])

/-- Read a reservation that belongs to an owner. -/
def read (element : Xml.Element) (owner : Owner) : Reading UrlReservation where
  actions :=
    element.visitAttributes (fun kind v => (ReservationAttribute.faults kind v).map .report)
      ++ element.children.flatMap (childActions element owner)
      ++ (closingFaults element).map .report
  row? := (urlOf? element).map fun url =>
    ⟨idOf element owner, handleExistingOf element, sddlOf? element, url, owner.componentId⟩

/-- Everything a reservation asks for, its row included. -/
def actions (element : Xml.Element) (owner : Owner) : List Action :=
  (read element owner).allActions (.emitReservation element.pos)

end UrlReservation

/-- Read a reservation into a session; the answer is the row emitted for it. -/
def Session.readReservation (policy : Policy) (s : Session) (element : Xml.Element)
    (owner : Owner) : Session × Option UrlReservation :=
  s.settle policy (UrlReservation.read element owner) (.emitReservation element.pos)

end UrlReservations
