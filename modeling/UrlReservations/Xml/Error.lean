/-
Why a text is not a document.

Each constructor is one cause, with the position the message points at.  The
wording is in `Error.message` and nowhere else.
-/
import UrlReservations.Position

namespace UrlReservations.Xml

/-- The causes for which reading a document fails. -/
inductive Error where
  /-- The prefix `xml` is declared with a namespace that is not its own. -/
  | xmlPrefixRebound (pos : Position)
  /-- The namespace of the prefix `xml` is declared for something else. -/
  | xmlNamespaceRebound (pos : Position)
  /-- The namespace of namespace declarations is itself declared. -/
  | xmlnsNamespaceDeclared (pos : Position)
  /-- An element name has the prefix `xmlns`. -/
  | xmlnsElement (pos : Position)
  /-- A prefix is declared twice in one tag. -/
  | repeatedDeclaration (qualifier : String) (pos : Position)
  /-- A prefix that no enclosing tag declares. -/
  | undeclaredQualifier (qualifier : String) (pos : Position)
  /-- An end tag that does not name the element it should close. -/
  | mismatchedEndTag (expected actual : String) (pos : Position)
  /-- A reference to an entity that is not predefined. -/
  | unknownReference (name : String) (pos : Position)
  /-- An ampersand that begins no reference. -/
  | malformedReference (pos : Position)
  /-- Two attributes of one tag with the same namespace and local name. -/
  | repeatedAttribute (name : String) (pos : Position)
  /-- The text holds no element. -/
  | noRoot
  /-- The text ends inside the root element. -/
  | unclosedRoot
  /-- An XML declaration that is not at the very beginning. -/
  | misplacedDeclaration (pos : Position)
  /-- The text has a document type declaration. -/
  | doctype
  /-- A character that no document may hold. -/
  | forbiddenCharacter (c : Char) (pos : Position)
  /-- One particular character was required and another found. -/
  | expectedCharacter (expected actual : Char) (pos : Position)
  /-- A blank was required and another character found. -/
  | expectedSpace (actual : Char) (pos : Position)
  /-- A quotation mark was required and another character found. -/
  | expectedQuote (actual : Char) (pos : Position)
  /-- A fixed run of characters was required. -/
  | expectedText (expected : String) (pos : Position)
  /-- Something that should be a name is none. -/
  | invalidName (pos : Position)
  /-- Something that no rule of the grammar allows here. -/
  | unknownToken (pos : Position)
  /-- The text ends where a character was required. -/
  | endOfText
  /-- A comment that holds two dashes in a row or ends in one. -/
  | dashesInComment (pos : Position)
  /-- Character data that holds the end mark of a CDATA section. -/
  | sectionEndInText (pos : Position)
  deriving DecidableEq

namespace Error

/-- The lower-case hexadecimal digits of a number. -/
private def hexText (n : Nat) : String := String.ofList (Nat.toDigits 16 n)

/-- A forbidden character, escaped so that it can be shown. -/
private def escaped (c : Char) : String :=
  if c.toNat = 0 then "\\0" else "\\u\x7b" ++ hexText c.toNat ++ "\x7d"

/--
The character that stands for the first byte of another's UTF-8 form.

Messages about an unexpected character name the byte the reader stopped at, read as
a Latin-1 character; for a character of ASCII this is the character itself.
-/
private def leadByte (c : Char) : Char :=
  if c.toNat < 0x80 then c
  else if c.toNat < 0x800 then Char.ofNat (0xC0 + c.toNat / 0x40)
  else if c.toNat < 0x10000 then Char.ofNat (0xE0 + c.toNat / 0x1000)
  else Char.ofNat (0xF0 + c.toNat / 0x40000)

/-- The wording of an error. -/
def message : Error → String
  | xmlPrefixRebound pos => s!"'xml' namespace prefix mapped to wrong URI at {pos}"
  | xmlNamespaceRebound pos => s!"the 'xml' namespace URI is used for not 'xml' prefix at {pos}"
  | xmlnsNamespaceDeclared pos => s!"the 'xmlns' URI is used at {pos}, but it must not be declared"
  | xmlnsElement pos => s!"the 'xmlns' prefix is used at {pos}, but it must not be"
  | repeatedDeclaration qualifier pos => s!"namespace '{qualifier}' at {pos} is already defined"
  | undeclaredQualifier qualifier pos => s!"an unknown namespace prefix '{qualifier}' at {pos}"
  | mismatchedEndTag expected actual pos => s!"expected '{expected}' tag, not '{actual}' at {pos}"
  | unknownReference name pos => s!"unknown entity reference '{name}' at {pos}"
  | malformedReference pos => s!"malformed entity reference at {pos}"
  | repeatedAttribute name pos => s!"attribute '{name}' at {pos} is already defined"
  | noRoot => "the document does not have a root node"
  | unclosedRoot => "the root node was opened but never closed"
  | misplacedDeclaration pos => s!"unexpected XML declaration at {pos}"
  | doctype => "XML with DTD detected"
  | forbiddenCharacter c pos => s!"a non-XML character '{escaped c}' found at {pos}"
  | expectedCharacter expected actual pos =>
    s!"expected '{expected}' not '{leadByte actual}' at {pos}"
  | expectedSpace actual pos => s!"expected a whitespace not '{leadByte actual}' at {pos}"
  | expectedQuote actual pos => s!"expected a quote not '{leadByte actual}' at {pos}"
  | expectedText expected pos => s!"expected '{expected}' at {pos}"
  | invalidName pos => s!"invalid name token at {pos}"
  | unknownToken pos => s!"unknown token at {pos}"
  | endOfText => "unexpected end of stream"
  | dashesInComment pos => s!"comment at {pos} contains '--'"
  | sectionEndInText pos => s!"']]>' at {pos} is not allowed inside a character data"

end Error

end UrlReservations.Xml
