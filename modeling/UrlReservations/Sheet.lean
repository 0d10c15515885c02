/-
Records as they are written out.

Whatever the format, the records are written as three sheets of rows, each row a list of
named values.  The names and their order are decided here, the notation by each format.
-/
import UrlReservations.Record

namespace UrlReservations

/-- A value that is written out. -/
inductive Cell where
  | number (n : Nat)
  | text (s : String)
  deriving DecidableEq

/-- Named values in the order they are written. -/
abbrev Row := List (String × Cell)

/-- A named list of rows. -/
structure Sheet where
  name : String
  rows : List Row
  deriving DecidableEq

/-- A reservation as a row; a descriptor that is absent is left out. -/
def UrlReservation.row (r : UrlReservation) : Row :=
  [("id", .text r.id.text), ("handle_existing", .number r.handleExisting.code)]
    ++ r.sddl?.toList.map (fun sddl => ("sddl", .text sddl))
    ++ [("url", .text r.url), ("component_id", .text r.componentId)]

/-- An access control entry as a row. -/
def UrlAce.row (a : UrlAce) : Row :=
  [("id", .text a.id.text), ("reservation_id", .text a.reservationId.text),
   ("security_principal", .text a.securityPrincipal), ("rights", .number a.rights.code)]

/-- A reference as a row. -/
def Reference.row (r : Reference) : Row := [("table", .text r.table), ("name", .text r.name)]

/-- The sheets of a set of records. -/
def RecordSet.sheets (records : RecordSet) : List Sheet :=
  [⟨"url_reservations", records.urlReservations.map UrlReservation.row⟩,
   ⟨"url_aces", records.urlAces.map UrlAce.row⟩,
   ⟨"references", records.references.map Reference.row⟩]

end UrlReservations
