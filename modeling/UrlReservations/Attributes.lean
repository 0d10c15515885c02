/-
The attributes of an extension element.

Every kind of element understands a closed set of attributes.  An attribute without
a namespace and one in the HTTP namespace are the same to it, so an attribute can be
authored twice under one local name; the first one counts.

`findings` says of every attribute of a tag what it is: foreign, unknown, a repetition,
or the first of its name.  What is reported and what values an element gets both follow
from that: every finding but the last kind is reported as it stands, and the last
kind is handed to the reader of the element.
-/
import UrlReservations.Session

namespace UrlReservations

/-- A closed set of attributes, each with a local name. -/
class AttributeSet (α : Type) where
  name : α → String
  ofName? : String → Option α

/-- An attribute set in which reading a name and writing it undo each other. -/
class LawfulAttributeSet (α : Type) [AttributeSet α] : Prop where
  ofName?_eq_some {text : String} {kind : α} :
    AttributeSet.ofName? text = some kind ↔ AttributeSet.name kind = text

/-- What an attribute of a tag turns out to be. -/
inductive Finding (α : Type) where
  /-- An attribute of another extension. -/
  | foreign (a : Xml.Attribute)
  /-- An attribute the element does not have. -/
  | unknown (a : Xml.Attribute)
  /-- A further attribute of a name that was there before. -/
  | repeated (kind : α) (a : Xml.Attribute)
  /-- The first attribute of its name. -/
  | first (kind : α) (a : Xml.Attribute)

/-- What each attribute is, given the names that were there before. -/
def findings {α : Type} [AttributeSet α] [DecidableEq α] (seen : List α) :
    List Xml.Attribute → List (Finding α)
  | [] => []
  | a :: rest =>
    if a.isOwn then
      match AttributeSet.ofName? a.name with
      | none => .unknown a :: findings seen rest
      | some kind =>
        if kind ∈ seen then .repeated kind a :: findings seen rest
        else .first kind a :: findings (kind :: seen) rest
    else .foreign a :: findings seen rest

/-! ### Values -/

/-- A value together with the element and attribute it was authored on. -/
structure AttributeValue where
  element : String
  name : String
  value : String
  pos : Position
  deriving DecidableEq

namespace AttributeValue

/-- The value as text; an empty value counts as not authored. -/
def text? (v : AttributeValue) : Option String := if v.value = "" then none else some v.value

/-- What is reported when the value is read as text: that it is empty. -/
def textFaults (v : AttributeValue) : List Diagnostic :=
  if v.value = "" then [⟨v.pos, .illegalEmptyAttributeValue v.element v.name⟩] else []

/--
The value as an identifier; an illegal one is kept, so that what
depends on it can still be checked.
-/
def identifier? (v : AttributeValue) : Option Identifier := v.text?.map Identifier.mk

/-- What is reported when the value is read as an identifier: that it is empty or illegal. -/
def identifierFaults (v : AttributeValue) : List Diagnostic :=
  if v.value = "" then v.textFaults
  else if Identifier.isLegal v.value then []
  else [⟨v.pos, .illegalIdentifier v.element v.name v.value⟩]

/-- What the value chooses, which is what was chosen before if it is no legal word. -/
def choice {α : Type} [Choice α] (v : AttributeValue) (current : α) : α :=
  (Choice.ofToken? v.value).getD current

/-- What is reported when the value is read as a choice: that it is no legal word. -/
def choiceFaults (α : Type) [Choice α] (v : AttributeValue) : List Diagnostic :=
  match Choice.ofToken? (α := α) v.value with
  | some _ => []
  | none => [⟨v.pos, .illegalAttributeValue v.element v.name v.value (Choice.tokens α)⟩]

end AttributeValue

/-! ### Visiting the attributes of an element -/

namespace Finding

variable {α : Type} [AttributeSet α]

/-- The value of an attribute of an element, under the name its set gives it. -/
def value (element : Xml.Element) (kind : α) (a : Xml.Attribute) : AttributeValue :=
  ⟨element.name, AttributeSet.name kind, a.value, a.pos⟩

/--
What a finding about an element asks for, if `visit` says it for the first attribute of a name.
-/
def actions (element : Xml.Element) (visit : α → AttributeValue → List Action) :
    Finding α → List Action
  | .foreign a => [.forwardAttribute element a]
  | .unknown a => [.report ⟨a.pos, .unexpectedAttribute element.name a.name⟩]
  | .repeated kind a => [.report ⟨a.pos, .duplicateAttribute element.name (AttributeSet.name kind)⟩]
  | .first kind a => visit kind (value element kind a)

/-- The first attribute of a name, with its value on an element. -/
def first? (element : Xml.Element) : Finding α → Option (α × AttributeValue)
  | .first kind a => some (kind, value element kind a)
  | _ => none

end Finding

namespace Xml.Element

/-- What the attributes of an element are, in document order. -/
def attributeFindings (element : Element) (α : Type) [AttributeSet α] [DecidableEq α] :
    List (Finding α) :=
  findings [] element.attributes

/-- Visit every attribute of an element once, in document order. -/
def visitAttributes {α : Type} [AttributeSet α] [DecidableEq α] (element : Element)
    (visit : α → AttributeValue → List Action) : List Action :=
  (element.attributeFindings α).flatMap (Finding.actions element visit)

/-- The attributes that a visit reaches, with their values. -/
def visited (element : Element) (α : Type) [AttributeSet α] [DecidableEq α] :
    List (α × AttributeValue) :=
  (element.attributeFindings α).filterMap (Finding.first? element)

/-- The value authored for an attribute: that of the first one of its name, unless it is empty. -/
def authored? {α : Type} [AttributeSet α] [DecidableEq α] (element : Element) (kind : α) :
    Option String :=
  (((element.visited α).find? (·.1 = kind)).map (·.2)).bind (·.text?)

end Xml.Element

end UrlReservations
