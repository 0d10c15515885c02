/-
Records in JSON are given back.

A consumer of the output knows the names of the members and what the numbers stand for, and
nothing of how the text is laid out.  So the records are put together again from the value that
the text is read as: members are looked up by name, in whatever order they stand, and each field
says what its value has to be.  A descriptor is the one field that may be missing; a missing one
is no descriptor, and one that is there is a descriptor even if it is empty.

That a row is given back is a computation, since a row has the same names whatever it holds.  The
lists of rows are gone through by induction, and the text as a whole is what `read?_render` says.
-/
import UrlReservations.Proofs.JsonRoundTrip

namespace UrlReservations

/-! ### Members of a value -/

namespace Json.Value

/-- What stands under a name in an object. -/
def member? : Value → String → Option Value
  | object members, name => members.lookup name
  | _, _ => none

/-- A value that is a text. -/
def text? : Value → Option String
  | text s => some s
  | _ => none

/-- A value that is a whole number, written without an exponent. -/
def nat? : Value → Option Nat
  | number (.ofNat n) 0 => some n
  | _ => none

/-- The elements of a value that is an array. -/
def items? : Value → Option (List Value)
  | array items => some items
  | _ => none

/-- The text under a name. -/
def textAt? (value : Value) (name : String) : Option String := (value.member? name).bind text?

/-- The text under a name, if there is anything under it. -/
def optionalTextAt? (value : Value) (name : String) : Option (Option String) :=
  match value.member? name with
  | none => some none
  | some member => member.text?.map some

/-- The whole number under a name. -/
def natAt? (value : Value) (name : String) : Option Nat := (value.member? name).bind nat?

/-- The array under a name, with each element put together again. -/
def listAt? {α : Type} (value : Value) (name : String) (ofJson? : Value → Option α) :
    Option (List α) :=
  ((value.member? name).bind items?).bind (List.mapM ofJson?)

end Json.Value

/-! ### Records out of values -/

/-- What a number in the reservation table stands for. -/
def HandleExisting.ofCode? : Nat → Option HandleExisting
  | 0 => some replace
  | 1 => some ignore
  | 2 => some fail
  | _ => none

/-- The rights that an access mask stands for. -/
def Rights.ofCode? (mask : Nat) : Option Rights :=
  if mask = 0x10000000 then some all
  else if mask = 0x40000000 then some delegate
  else if mask = 0x20000000 then some register
  else none

open Json (Value)

/-- A reservation out of its value. -/
def UrlReservation.ofJson? (value : Value) : Option UrlReservation := do
  let id ← value.textAt? "id"
  let handleExisting ← (value.natAt? "handle_existing").bind HandleExisting.ofCode?
  let sddl? ← value.optionalTextAt? "sddl"
  let url ← value.textAt? "url"
  let componentId ← value.textAt? "component_id"
  return { id := ⟨id⟩, handleExisting, sddl?, url, componentId }

/-- An access control entry out of its value. -/
def UrlAce.ofJson? (value : Value) : Option UrlAce := do
  let id ← value.textAt? "id"
  let reservationId ← value.textAt? "reservation_id"
  let securityPrincipal ← value.textAt? "security_principal"
  let rights ← (value.natAt? "rights").bind Rights.ofCode?
  return { id := ⟨id⟩, reservationId := ⟨reservationId⟩, securityPrincipal, rights }

/-- A reference out of its value. -/
def Reference.ofJson? (value : Value) : Option Reference := do
  let table ← value.textAt? "table"
  let name ← value.textAt? "name"
  return { table, name }

/-- The records out of the value of the whole text. -/
def RecordSet.ofJson? (value : Value) : Option RecordSet := do
  let urlReservations ← value.listAt? "url_reservations" UrlReservation.ofJson?
  let urlAces ← value.listAt? "url_aces" UrlAce.ofJson?
  let references ← value.listAt? "references" Reference.ofJson?
  return { urlReservations, urlAces, references }

/-! ### What is written is given back -/

theorem UrlReservation.ofJson?_row (r : UrlReservation) : ofJson? (.ofRow r.row) = some r := by
  obtain ⟨id, handleExisting, sddl?, url, componentId⟩ := r
  cases handleExisting <;> cases sddl? <;> rfl

theorem UrlAce.ofJson?_row (a : UrlAce) : ofJson? (.ofRow a.row) = some a := by
  obtain ⟨id, reservationId, securityPrincipal, rights⟩ := a
  cases rights <;> rfl

theorem Reference.ofJson?_row (r : Reference) : ofJson? (.ofRow r.row) = some r := rfl

/-- Rows that are given back one by one are given back in their order. -/
theorem mapM_ofRow {ρ : Type} {row : ρ → Row} {ofJson? : Value → Option ρ}
    (h : ∀ r, ofJson? (.ofRow (row r)) = some r) (rows : List ρ) :
    ((rows.map row).map Value.ofRow).mapM ofJson? = some rows := by
  induction rows with
  | nil => rfl
  | cons r rows ih =>
    rw [List.map_cons, List.map_cons, List.mapM_cons, h, ih]
    rfl

/--
**JSON loses nothing**: whatever records are written, reading the text as JSON gives them back, each
list with its rows in their order.
-/
theorem json_gives_records_back (records : RecordSet) :
    (Json.read? (Format.json.render records)).bind RecordSet.ofJson? = some records := by
  have hreservations := mapM_ofRow UrlReservation.ofJson?_row records.urlReservations
  have haces := mapM_ofRow UrlAce.ofJson?_row records.urlAces
  have hreferences := mapM_ofRow Reference.ofJson?_row records.references
  rw [Format.render, Json.read?_render, Option.bind_some]
  -- under each name stands the array of its rows
  show (do
    let urlReservations ← ((records.urlReservations.map UrlReservation.row).map Value.ofRow).mapM
      UrlReservation.ofJson?
    let urlAces ← ((records.urlAces.map UrlAce.row).map Value.ofRow).mapM UrlAce.ofJson?
    let references ← ((records.references.map Reference.row).map Value.ofRow).mapM Reference.ofJson?
    return ({ urlReservations, urlAces, references } : RecordSet)) = some records
  rw [hreservations, haces, hreferences]
  rfl

end UrlReservations
