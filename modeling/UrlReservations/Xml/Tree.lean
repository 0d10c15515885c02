/-
Documents.

An element is a tag and its content; the content is a list of nodes, each an element
again, a run of character data, or a remark (a comment or an instruction).  Tags
keep the namespaces their names were resolved to and the positions they were written
at, so a document can be reported on without the text it was read from.

Functions that follow the nesting recurse on a node and on a list of nodes together;
`Node.forestInduction` is the matching proof principle, stated for lists of nodes
alone.
-/
import UrlReservations.Position

namespace UrlReservations.Xml

/-- An attribute of a tag; namespace declarations are not attributes. -/
structure Attribute where
  /--
  The namespace the attribute's prefix is declared for; an attribute without a prefix has none.
  -/
  uri? : Option String
  name : String
  value : String
  pos : Position
  deriving DecidableEq

/-- What a start tag says about its element. -/
structure Tag where
  /-- The namespace of the element, which an empty declaration sets to the empty text. -/
  uri? : Option String
  name : String
  attributes : List Attribute
  pos : Position
  deriving DecidableEq

/-- Markup that is neither an element nor character data. -/
inductive Remark where
  | comment (text : String)
  | instruction (target text : String)
  deriving DecidableEq

/-- A piece of an element's content. -/
inductive Node where
  | element (tag : Tag) (content : List Node)
  | text (data : String)
  | remark (remark : Remark)

/-- A tag with the content it encloses. -/
structure Element where
  tag : Tag
  content : List Node

/-- A root element and the remarks before and after it. -/
structure Document where
  prolog : List Remark
  root : Element
  epilog : List Remark

namespace Node

/-- The element a node is, if it is one. -/
def element? : Node → Option Element
  | element tag content => some ⟨tag, content⟩
  | _ => none

/-- The remark a node is, if it is one. -/
def remark? : Node → Option Remark
  | remark r => some r
  | _ => none

@[simp] theorem element?_element (tag : Tag) (content : List Node) :
    (element tag content).element? = some ⟨tag, content⟩ := rfl

@[simp] theorem element?_text (data : String) : (text data).element? = none := rfl

@[simp] theorem element?_remark (r : Remark) : (remark r).element? = none := rfl

/--
What holds of the empty content, and of every content whose parts it
holds of, holds of all content.
-/
theorem forestInduction {P : List Node → Prop} (nil : P [])
    (element : ∀ tag content rest, P content → P rest → P (.element tag content :: rest))
    (text : ∀ data rest, P rest → P (.text data :: rest))
    (remark : ∀ r rest, P rest → P (.remark r :: rest)) (nodes : List Node) : P nodes :=
  Node.rec_1
    (motive_1 := fun node => match node with
      | .element _ content => P content
      | .text _ => True
      | .remark _ => True)
    (motive_2 := P)
    (fun _ _ h => h) (fun _ => trivial) (fun _ => trivial) nil
    (fun node rest hnode hrest => match node, hnode with
      | .element tag content, h => element tag content rest h hrest
      | .text data, _ => text data rest hrest
      | .remark r, _ => remark r rest hrest)
    nodes

end Node

namespace Element

/-- The position of an element is that of its start tag. -/
def pos (element : Element) : Position := element.tag.pos

/-- The local name of an element. -/
def name (element : Element) : String := element.tag.name

/-- The namespace of an element. -/
def uri? (element : Element) : Option String := element.tag.uri?

/-- The attributes of an element, in document order. -/
def attributes (element : Element) : List Attribute := element.tag.attributes

/-- The elements directly inside an element, in document order. -/
def children (element : Element) : List Element := element.content.filterMap Node.element?

/-- The value of the first attribute with a local name, whatever its namespace. -/
def attribute? (element : Element) (name : String) : Option String :=
  (element.attributes.find? (·.name = name)).map (·.value)

/-- The value of the first attribute with a local name; an empty value counts as absent. -/
def nonEmptyAttribute? (element : Element) (name : String) : Option String :=
  (element.attribute? name).filter (· ≠ "")

/-- Whether two elements have the same namespace and local name. -/
def sameName (a b : Element) : Bool := a.name = b.name && a.uri? = b.uri?

end Element

/--
The document of a list of nodes that holds an element: what stands
around the first one are remarks.
-/
def Document.ofNodes? : List Node → Option Document
  | [] => none
  | node :: rest =>
    match node.element? with
    | some root => some ⟨[], root, rest.filterMap Node.remark?⟩
    | none => (ofNodes? rest).map fun doc =>
      { doc with prolog := node.remark?.toList ++ doc.prolog }

end UrlReservations.Xml
