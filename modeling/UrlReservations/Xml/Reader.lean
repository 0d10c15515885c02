/-
Reading a document from its tokens.

The reader works through the tokens with a stack of the elements that are still
open.  Everything the scan does not check is checked here: declarations and
references attribute by attribute, names at the end of each tag, and that every end
tag closes the innermost open element.

A lexical error of the scan counts only once all tokens before it have been
accepted, so the error reported is always the one that stands first in the text.
-/
import UrlReservations.Xml.Namespace

namespace UrlReservations.Xml

/-- An attribute whose prefix is still to be resolved. -/
structure RawAttribute where
  qname : QName
  value : String
  pos : Position

/-- A start tag that is still being read. -/
structure RawTag where
  qname : QName
  pos : Position
  declared : List Declaration
  attributes : List RawAttribute

/--
An element whose end tag has not been reached: its tag, the scope inside it, and the nodes
before it, latest first.
-/
structure OpenElement where
  qname : QName
  tag : Tag
  scope : Scope
  before : List Node

/-- How far a document has been read. -/
structure Reader where
  /-- The start tag being read, if the last token belongs to one. -/
  tag? : Option RawTag
  /-- The open elements, innermost first. -/
  opened : List OpenElement
  /-- The content of the innermost open element so far, latest first. -/
  content : List Node

namespace Reader

/-- Nothing read yet. -/
def start : Reader := ⟨none, [], []⟩

/-- The declarations in force outside the tag being read. -/
def scope (reader : Reader) : Scope :=
  match reader.opened with
  | [] => []
  | innermost :: _ => innermost.scope

/-- Add a node to the content. -/
def add (reader : Reader) (node : Node) : Reader :=
  { reader with content := node :: reader.content }

/-- Take an attribute or declaration into the start tag being read. -/
def takeAttribute (tag : RawTag) (qname : QName) (pos : Position) (written : Cursor) :
    Except Error RawTag := do
  let value ← decodeAttribute written
  match qname.declares? with
  | some qualifier => return { tag with declared := ← declare tag.declared ⟨qualifier, value⟩ pos }
  | none => return { tag with attributes := tag.attributes ++ [⟨qname, value, pos⟩] }

/-- Resolve the attributes of a tag in turn; no two may have the same namespace and local name. -/
def resolveAttributes (scope : Scope) (resolved : List Attribute) :
    List RawAttribute → Except Error (List Attribute)
  | [] => .ok resolved
  | raw :: rest => do
    let uri? ← scope.ofAttribute raw.qname raw.pos
    if resolved.any fun a => a.uri? = uri? ∧ a.name = raw.qname.name then
      throw (.repeatedAttribute raw.qname.name raw.pos)
    resolveAttributes scope (resolved ++ [⟨uri?, raw.qname.name, raw.value, raw.pos⟩]) rest

/--
Resolve a whole tag under the declarations in force inside it: its attributes first, then its
own name.
-/
def resolveTag (scope : Scope) (raw : RawTag) : Except Error Tag := do
  let attributes ← resolveAttributes scope [] raw.attributes
  let uri? ← scope.ofElement raw.qname raw.pos.nextColumn
  return ⟨uri?, raw.qname.name, attributes, raw.pos⟩

/-- End the start tag being read, and for an empty element the element with it. -/
def endTag (reader : Reader) (raw : RawTag) (empty : Bool) : Except Error Reader := do
  let scope := raw.declared ++ reader.scope
  let tag ← resolveTag scope raw
  if empty then return { reader with tag? := none, content := .element tag [] :: reader.content }
  else return ⟨none, ⟨raw.qname, tag, scope, reader.content⟩ :: reader.opened, []⟩

/-- Close the innermost open element, which must be the one named. -/
def closeElement (reader : Reader) (qname : QName) (pos : Position) : Except Error Reader :=
  match reader.opened with
  | [] => .ok reader
  | innermost :: outer =>
    if innermost.qname = qname then
      .ok ⟨none, outer, .element innermost.tag reader.content.reverse :: innermost.before⟩
    else .error (.mismatchedEndTag innermost.qname.text qname.text pos)

/-- Take one token. -/
def take (reader : Reader) : Token → Except Error Reader
  | .tagStart qname pos =>
    if qname.qualifier = "xmlns" then .error (.xmlnsElement pos.nextColumn)
    else .ok { reader with tag? := some ⟨qname, pos, [], []⟩ }
  | .attr qname pos written =>
    match reader.tag? with
    | none => .ok reader
    | some tag => do return { reader with tag? := some (← takeAttribute tag qname pos written) }
  | .tagEnd empty =>
    match reader.tag? with
    | none => .ok reader
    | some tag => reader.endTag tag empty
  | .endTag qname pos => reader.closeElement qname pos
  | .text run => do return reader.add (.text (← decodeText run))
  | .cdata text => .ok (reader.add (.text text))
  | .comment text => .ok (reader.add (.remark (.comment text)))
  | .instruction target text => .ok (reader.add (.remark (.instruction target text)))

/-- The document, once all tokens have been taken. -/
def finish (reader : Reader) : Except Error Document :=
  if !reader.opened.isEmpty then .error .unclosedRoot
  else match Document.ofNodes? reader.content.reverse with
    | none => .error .noRoot
    | some doc => .ok doc

end Reader

/-- Read a document from the tokens of its text. -/
def Document.ofScan (scan : Token.Scan) : Except Error Document := do
  let reader ← scan.tokens.foldlM Reader.take Reader.start
  match scan.error? with
  | some error => throw error
  | none => reader.finish

/-- Read a document from its text. -/
def Document.read (text : String) : Except Error Document :=
  Document.ofScan (Token.scan text.toList)

end UrlReservations.Xml
