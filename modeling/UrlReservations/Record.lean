/-
What a compilation produces.

Two tables are filled, one with reservations and one with their access control
entries, and references are kept to rows of other tables that the result depends on.
-/
import UrlReservations.Choice
import UrlReservations.Identifier

namespace UrlReservations

/-- What happens at install time if the URL is already reserved. -/
inductive HandleExisting where
  | replace
  | ignore
  | fail
  deriving DecidableEq

namespace HandleExisting

instance : Choice HandleExisting := ⟨[("replace", replace), ("ignore", ignore), ("fail", fail)]⟩

/-- What happens unless something else is authored. -/
instance : Inhabited HandleExisting := ⟨replace⟩

/-- The number stored in the reservation table. -/
def code : HandleExisting → Nat
  | replace => 0
  | ignore => 1
  | fail => 2

end HandleExisting

/-- What a principal may do with a reserved URL. -/
inductive Rights where
  /-- Register and delegate. -/
  | all
  /-- Delegate parts of the URL to other principals. -/
  | delegate
  /-- Register to listen on the URL. -/
  | register
  deriving DecidableEq

namespace Rights

instance : Choice Rights := ⟨[("all", all), ("delegate", delegate), ("register", register)]⟩

/-- The rights granted unless others are authored. -/
instance : Inhabited Rights := ⟨all⟩

/-- The access mask stored in the entry table. -/
def code : Rights → Nat
  | all => 0x10000000
  | delegate => 0x40000000
  | register => 0x20000000

end Rights

/-- A row of the reservation table. -/
structure UrlReservation where
  id : Identifier
  handleExisting : HandleExisting
  /-- A security descriptor; a reservation without one is secured by its access control entries. -/
  sddl? : Option String
  url : String
  componentId : String
  deriving DecidableEq

/-- A row of the access control entry table. -/
structure UrlAce where
  id : Identifier
  reservationId : Identifier
  securityPrincipal : String
  rights : Rights
  deriving DecidableEq

/-- A dependency on a named row of another table. -/
structure Reference where
  table : String
  name : String
  deriving DecidableEq

/-- The rows and references of a compilation, each list in the order of emission. -/
structure RecordSet where
  urlReservations : List UrlReservation
  urlAces : List UrlAce
  references : List Reference
  deriving DecidableEq

/-- Whether there is nothing in any of the lists. -/
def RecordSet.isEmpty (records : RecordSet) : Bool :=
  records.urlReservations.isEmpty && records.urlAces.isEmpty && records.references.isEmpty

end UrlReservations
