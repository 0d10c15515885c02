/-
Namespace declarations and what names mean under them.

A scope is the list of declarations in force, innermost first, so looking a prefix
up is finding the first declaration of it.  The default namespace is the declaration
of the empty prefix.  Two prefixes are special: `xmlns` makes a declaration of an
attribute, and `xml` names a fixed namespace on attributes without being declared.
-/
import UrlReservations.Xml.Token
import UrlReservations.Xml.Tree

namespace UrlReservations.Xml

/-- The namespace that the prefix `xml` is bound to. -/
def xmlNamespace : String := "http://www.w3.org/XML/1998/namespace"

/-- The namespace of namespace declarations. -/
def xmlnsNamespace : String := "http://www.w3.org/2000/xmlns/"

/-- A prefix, empty for the default namespace, and the namespace it is declared for. -/
structure Declaration where
  qualifier : String
  uri : String
  deriving DecidableEq

/-- The declarations in force, innermost first. -/
abbrev Scope := List Declaration

/-- The namespace a prefix is declared for. -/
def Scope.find? (scope : Scope) (qualifier : String) : Option String :=
  (List.find? (fun d => d.qualifier = qualifier) scope).map (·.uri)

/-- Whether an attribute name makes a namespace declaration, and of which prefix. -/
def QName.declares? (qname : QName) : Option String :=
  if qname.qualifier = "xmlns" then some qname.name
  else if qname.name = "xmlns" then some ""
  else none

/--
The declarations of a tag after one more, of a prefix at a position.

Declaring `xml` for its own namespace is allowed and changes nothing.  A prefix may
not be declared twice in one tag; for the default namespace the first declaration
counts.
-/
def declare (declared : List Declaration) (declaration : Declaration) (pos : Position) :
    Except Error (List Declaration) :=
  if declaration.uri = xmlNamespace then
    if declaration.qualifier = "xml" then .ok declared else .error (.xmlNamespaceRebound pos)
  else if declaration.uri = xmlnsNamespace then .error (.xmlnsNamespaceDeclared pos)
  else if declaration.qualifier = "xml" then .error (.xmlPrefixRebound pos)
  else if declaration.qualifier ≠ "" ∧ declared.any (·.qualifier = declaration.qualifier) then
    .error (.repeatedDeclaration declaration.qualifier pos)
  else .ok (declared ++ [declaration])

/-- The namespace of an attribute: none without a prefix, and that of the prefix otherwise. -/
def Scope.ofAttribute (scope : Scope) (qname : QName) (pos : Position) :
    Except Error (Option String) :=
  if qname.qualifier = "xml" then .ok (some xmlNamespace)
  else if qname.qualifier = "" then .ok none
  else match scope.find? qname.qualifier with
    | some uri => .ok (some uri)
    | none => .error (.undeclaredQualifier qname.qualifier pos)

/-- The namespace of an element: that of its prefix, or the default namespace, if there is one. -/
def Scope.ofElement (scope : Scope) (qname : QName) (pos : Position) :
    Except Error (Option String) :=
  match scope.find? qname.qualifier with
  | some uri => .ok (some uri)
  | none =>
    if qname.qualifier = "" then .ok none else .error (.undeclaredQualifier qname.qualifier pos)

end UrlReservations.Xml
