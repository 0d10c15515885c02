/-
Reading `UrlAce` elements.

An entry grants rights on a reservation to a principal.  The principal is authored or
taken from the elements around the reservation; without one there is no row.  An
entry has no children of its own.
-/
import UrlReservations.Reading

namespace UrlReservations

/-- The attributes of an access control entry. -/
inductive AceAttribute where
  | id
  | securityPrincipal
  | rights
  deriving DecidableEq

namespace AceAttribute

/-- All attributes of an access control entry. -/
def all : List AceAttribute := [id, securityPrincipal, rights]

/-- The local name of an attribute. -/
def name : AceAttribute → String
  | id => "Id"
  | securityPrincipal => "SecurityPrincipal"
  | rights => "Rights"

instance : AttributeSet AceAttribute := ⟨name, fun text => all.find? (·.name = text)⟩

instance : LawfulAttributeSet AceAttribute where
  ofName?_eq_some {text kind} := by
    constructor
    · intro h
      have found : all.find? (·.name = text) = some kind := h
      have matched : kind.name = text := by simpa using List.find?_some found
      exact matched
    · rintro rfl
      cases kind <;> rfl

/-- What is reported about the value of an attribute. -/
def faults : AceAttribute → AttributeValue → List Diagnostic
  | id, v => v.identifierFaults
  | securityPrincipal, v => v.textFaults
  | rights, v => if v.value = "" then v.textFaults else v.choiceFaults Rights

end AceAttribute

namespace UrlAce

/-- What an entry asks for about one of its children: none is allowed. -/
def childActions (element child : Xml.Element) : List Action :=
  if child.isHttp then [.report ⟨child.pos, .unexpectedElement Vocabulary.urlAce child.name⟩]
  else [.forwardElement element child]

/-- The principal of an entry: the authored one, or else the ambient one. -/
def principal? (element : Xml.Element) (ambient? : Option String) : Option String :=
  (element.authored? AceAttribute.securityPrincipal).or ambient?

/-- The rights of an entry: those of the authored word, if it is legal. -/
def rightsOf (element : Xml.Element) : Rights :=
  ((element.authored? AceAttribute.rights).bind Choice.ofToken?).getD default

/--
The identifier of an entry: the authored one, or one derived from the reservation, the principal
and the authored word for the rights.
-/
def idOf (element : Xml.Element) (reservationId : Identifier) (ambient? : Option String) :
    Identifier :=
  match element.authored? AceAttribute.id with
  | some id => ⟨id⟩
  | none =>
    .derive .urlAce [some reservationId.text, principal? element ambient?,
      element.authored? AceAttribute.rights]

/-- What is reported at the end of an entry: that it has no principal. -/
def closingFaults (element : Xml.Element) (ambient? : Option String) : List Diagnostic :=
  if (principal? element ambient?).isNone then
    [⟨element.pos, .expectedAttribute Vocabulary.urlAce AceAttribute.securityPrincipal.name⟩]
  else []

/-- Read an entry of a reservation, under the principal that is ambient there. -/
def read (element : Xml.Element) (reservationId : Identifier) (ambient? : Option String) :
    Reading UrlAce where
  actions :=
    element.visitAttributes (fun kind v => (AceAttribute.faults kind v).map .report)
      ++ element.children.flatMap (childActions element)
      ++ (closingFaults element ambient?).map .report
  row? := (principal? element ambient?).map fun principal =>
    ⟨idOf element reservationId ambient?, reservationId, principal, rightsOf element⟩

/-- Everything an entry asks for, its row included. -/
def actions (element : Xml.Element) (reservationId : Identifier) (ambient? : Option String) :
    List Action :=
  (read element reservationId ambient?).allActions (.emitAce element.pos)

end UrlAce

/-- Read an entry into a session; the answer is the row emitted for it. -/
def Session.readAce (policy : Policy) (s : Session) (element : Xml.Element)
    (reservationId : Identifier) (ambient? : Option String) : Session × Option UrlAce :=
  s.settle policy (UrlAce.read element reservationId ambient?) (.emitAce element.pos)

end UrlReservations
