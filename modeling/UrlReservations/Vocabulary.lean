/-
The names the compiler knows.

Elements and attributes are told apart by namespace.  Those of the HTTP extension are
what is compiled; those of the core schema, which a source may also leave without a
namespace, are what they appear under; everything else belongs to other extensions.
-/
import UrlReservations.Xml.Place

namespace UrlReservations

namespace Vocabulary

/-- The namespace of the HTTP extension. -/
def httpNamespace : String := "http://wixtoolset.org/schemas/v4/wxs/http"

/-- The namespace of the core schema. -/
def coreNamespace : String := "http://wixtoolset.org/schemas/v4/wxs"

/-! ### Elements -/

/-- An installed unit, which owns the rows of the reservations in it. -/
def component : String := "Component"

/-- A service a component installs. -/
def serviceInstall : String := "ServiceInstall"

/-- A reservation of a URL. -/
def urlReservation : String := "UrlReservation"

/-- An access control entry of a reservation. -/
def urlAce : String := "UrlAce"

/-! ### Tables -/

/-- The table of reservations. -/
def urlReservationTable : String := "WixHttpUrlReservation"

/-- The table of access control entries. -/
def urlAceTable : String := "WixHttpUrlAce"

/-- The table of the custom actions that are referred to. -/
def customActionTable : String := "CustomAction"

/-! ### Values known about the elements around an extension element -/

/-- The identifier of the component an element stands in. -/
def componentIdKey : String := "ComponentId"

/-- The identifier of the component that installs the service. -/
def serviceInstallComponentIdKey : String := "ServiceInstallComponentId"

/-- The name of the service. -/
def serviceInstallNameKey : String := "ServiceInstallName"

/-- What the name of a service is preceded by in the name of its virtual account. -/
def serviceAccountDomain : String := "NT SERVICE\\"

end Vocabulary

namespace Xml

/-- Whether an element belongs to the HTTP extension. -/
def Element.isHttp (element : Element) : Bool := element.uri? = some Vocabulary.httpNamespace

/-- Whether an element belongs to the core schema; one without a namespace does. -/
def Element.isCore (element : Element) : Bool :=
  match element.uri? with
  | none => true
  | some uri => uri = Vocabulary.coreNamespace

/-- Whether an element is the one of the core schema with a given local name. -/
def Element.isCoreNamed (name : String) (element : Element) : Bool :=
  element.isCore && element.name = name

/-- Whether an attribute is interpreted here: it has no namespace or that of the HTTP extension. -/
def Attribute.isOwn (a : Attribute) : Bool :=
  match a.uri? with
  | none => true
  | some uri => uri = Vocabulary.httpNamespace

end Xml

end UrlReservations
