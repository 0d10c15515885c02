/-
What is reported about a source.

A diagnostic is a message at a position.  Every message is an error, and withholds
the result, except the two about markup of other extensions, which are warnings.
Values are put into the wording as they stand, without escaping.
-/
import UrlReservations.Position

namespace UrlReservations

/-- How much a message weighs. -/
inductive Severity where
  | warning
  | error
  deriving DecidableEq

namespace Severity

/-- The word a severity is shown as. -/
def name : Severity → String
  | warning => "warning"
  | error => "error"

/-- A warning weighs less than an error. -/
instance : Ord Severity where
  compare
    | warning, warning => .eq
    | warning, error => .lt
    | error, warning => .gt
    | error, error => .eq

end Severity

/-- The kinds of message. -/
inductive Message where
  /-- An element that may not stand under its parent. -/
  | unexpectedElement (parent element : String)
  /-- An attribute the element does not have. -/
  | unexpectedAttribute (element name : String)
  /-- An attribute authored a second time under another qualification. -/
  | duplicateAttribute (element name : String)
  /-- A value that is none of the legal words. -/
  | illegalAttributeValue (element name value : String) (legal : List String)
  /-- An attribute without a value. -/
  | illegalEmptyAttributeValue (element name : String)
  /-- A value that does not follow the identifier grammar. -/
  | illegalIdentifier (element name value : String)
  /-- A child that may not stand under a parent with the attribute. -/
  | illegalParentAttributeWhenNested (parent name child : String)
  /-- A required attribute that is missing. -/
  | expectedAttribute (element name : String)
  /-- A reservation with neither a descriptor nor entries. -/
  | noSecuritySpecified
  /-- A parent that lacks a value its extension children need. -/
  | missingContextValue (element key : String)
  /-- A row whose identifier is already in its table. -/
  | duplicateSymbol (table id : String)
  /-- An attribute of another extension. -/
  | unsupportedExtensionAttribute (element uri name : String)
  /-- An element of another extension. -/
  | unsupportedExtensionElement (parent uri element : String)
  deriving DecidableEq

namespace Message

/-- Markup of other extensions is warned about; everything else is an error. -/
def severity : Message → Severity
  | unsupportedExtensionAttribute .. | unsupportedExtensionElement .. => .warning
  | _ => .error

/-- Whether a message is an error. -/
def isError (message : Message) : Bool := message.severity = .error

/-- The wording of a message. -/
def text : Message → String
  | unexpectedElement parent element =>
    s!"The {parent} element contains an unexpected child element '{element}'."
  | unexpectedAttribute element name =>
    s!"The {element} element contains an unexpected attribute '{name}'."
  | duplicateAttribute element name =>
    s!"The {element}/@{name} attribute was specified more than once. Only the first value is used."
  | illegalAttributeValue element name value legal =>
    s!"The {element}/@{name} attribute's value, '{value}', is not one of the legal options: '" ++
      "', '".intercalate legal ++ "'."
  | illegalEmptyAttributeValue element name =>
    s!"The {element}/@{name} attribute's value cannot be an empty string. If a value is not " ++
      "required, simply remove the entire attribute."
  | illegalIdentifier element name value =>
    s!"The {element}/@{name} attribute's value, '{value}', is not a legal identifier. " ++
      "Identifiers may contain ASCII characters A-Z, a-z, digits, underscores (_), or periods " ++
      "(.). Every identifier must begin with either a letter or an underscore and be at most " ++
      "72 characters long."
  | illegalParentAttributeWhenNested parent name child =>
    s!"The {parent}/@{name} attribute cannot be specified when a {child} element is nested " ++
      s!"underneath the {parent} element."
  | expectedAttribute element name =>
    s!"The {element}/@{name} attribute was not found; it is required."
  | noSecuritySpecified =>
    "The UrlReservation element doesn't identify the security for the reservation. You must " ++
      "either specify the Sddl attribute, or provide child UrlAce elements."
  | missingContextValue element key =>
    s!"The {element} element does not provide the {key} value required by its extension elements."
  | duplicateSymbol table id => s!"Duplicate symbol '{table}:{id}' found."
  | unsupportedExtensionAttribute element uri name =>
    s!"The {element} element contains an unsupported extension attribute '{uri}:{name}'. It " ++
      "will be ignored."
  | unsupportedExtensionElement parent uri element =>
    s!"The {parent} element contains an unsupported extension element '{uri}:{element}'. It " ++
      "will be ignored."

end Message

/-- A message and the position it is about. -/
structure Diagnostic where
  pos : Position
  message : Message
  deriving DecidableEq

namespace Diagnostic

/-- The severity of the message. -/
def severity (d : Diagnostic) : Severity := d.message.severity

/-- Whether the message is an error. -/
def isError (d : Diagnostic) : Bool := d.message.isError

/-- A diagnostic as one line, `line:column: severity: message`. -/
def text (d : Diagnostic) : String := s!"{d.pos}: {d.severity.name}: {d.message.text}"

end Diagnostic

end UrlReservations
