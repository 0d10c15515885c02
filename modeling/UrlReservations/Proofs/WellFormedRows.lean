/-
Every delivered row is well formed.

A value that breaks a rule is reported and then read on with, so that the rest of its element can
be checked, and the rows that come of it are as bad as the value.  What keeps them out of the
result is that nothing is delivered after an error.  So what is delivered is the translation of
entries that follow the grammar, and the grammar makes such rows well formed: identifiers are
authored and legal, or derived and then legal in any case, and no text is empty, the two texts
from the elements around an entry included.
-/
import UrlReservations.Proofs.Delivery
import UrlReservations.Proofs.Derivation

namespace UrlReservations

open Xml (Element Place Document)

/-- A row of a reservation as an installer may rely on it. -/
structure UrlReservation.WellFormed (row : UrlReservation) : Prop where
  id : Identifier.isLegal row.id.text = true
  url : row.url ≠ ""
  componentId : row.componentId ≠ ""
  /-- There may be no descriptor, but none is empty. -/
  sddl : ∀ sddl, row.sddl? = some sddl → sddl ≠ ""

/-- A row of an access control entry as an installer may rely on it. -/
structure UrlAce.WellFormed (row : UrlAce) : Prop where
  id : Identifier.isLegal row.id.text = true
  reservationId : Identifier.isLegal row.reservationId.text = true
  securityPrincipal : row.securityPrincipal ≠ ""

/-- Records of well-formed rows, told apart by their identifiers within each table. -/
structure RecordSet.WellFormed (records : RecordSet) : Prop where
  reservations : ∀ row ∈ records.urlReservations, row.WellFormed
  aces : ∀ row ∈ records.urlAces, row.WellFormed
  reservationIds : (records.urlReservations.map (·.id)).Nodup
  aceIds : (records.urlAces.map (·.id)).Nodup

/-- An identifier that is authored legally, or derived, is legal. -/
theorem Identifier.isLegal_elim {id? : Option String} (h : ∀ id, id? = some id → isLegal id = true)
    (kind : Kind) (parts : List (Option String)) :
    isLegal (id?.elim (derive kind parts) Identifier.mk).text = true := by
  cases id? with
  | none => exact isLegal_derive kind parts
  | some id => exact h id rfl

namespace Xml

theorem Element.own?_ne_empty {element : Element} {names : List String}
    (h : element.WellAuthored names) {name value : String}
    (hvalue : element.own? name = some value) : value ≠ "" := by
  obtain ⟨a, ha, -, rfl⟩ := (own?_eq_some_iff h.distinct).mp hvalue
  exact h.nonempty a ha

namespace Place

variable {entry : Place}

theorem owningComponentId?_ne_empty {componentId : String}
    (h : entry.owningComponentId? Element.nonEmptyAttribute? = some componentId) :
    componentId ≠ "" := by
  obtain ⟨component, -, rfl⟩ := Option.map_eq_some_iff.mp h
  rw [← componentId_eq]
  exact component.componentId_ne_empty

/-- The account of a service is never empty, as its name is preceded by the name of the domain. -/
theorem ambientPrincipal?_ne_empty {principal : String}
    (h : entry.ambientPrincipal? Element.nonEmptyAttribute? = some principal) : principal ≠ "" := by
  obtain ⟨parent, -, hname⟩ := Option.bind_eq_some_iff.mp h
  obtain ⟨name, -, rfl⟩ := Option.map_eq_some_iff.mp hname
  intro hempty
  have hlist := congrArg String.toList hempty
  simp at hlist

theorem wellFormed_of_reservation? {ambient? : Option String}
    (h : entry.element.WellFormedReservation ambient?) {row : UrlReservation}
    (hrow : entry.reservation? Element.nonEmptyAttribute? = some row) : row.WellFormed := by
  obtain ⟨hcomponent, hurl, -, hid, hsddl⟩ := reservation?_eq_some_iff.mp hrow
  refine ⟨?_, ?_, ?_, ?_⟩
  · rw [hid]
    exact Identifier.isLegal_elim h.id _ _
  · exact Element.own?_ne_empty h.toWellAuthored hurl
  · exact owningComponentId?_ne_empty hcomponent
  · intro sddl hsome
    rw [hsddl] at hsome
    exact Element.own?_ne_empty h.toWellAuthored hsome

end Place

theorem Element.wellFormed_of_aceRow? {ambient? : Option String} {ace : Element}
    (h : ace.WellFormedAce ambient?)
    (hambient : ∀ principal, ambient? = some principal → principal ≠ "")
    {reservationId : Identifier} (hreservation : Identifier.isLegal reservationId.text = true)
    {row : UrlAce} (hrow : ace.aceRow? reservationId ambient? = some row) : row.WellFormed := by
  obtain ⟨hprincipal, -, hid, hreservationId⟩ := aceRow?_eq_some_iff.mp hrow
  refine ⟨?_, ?_, ?_⟩
  · rw [hid]
    exact Identifier.isLegal_elim h.id _ _
  · rw [hreservationId]
    exact hreservation
  · rcases Option.or_eq_some_iff.mp hprincipal with hauthored | ⟨-, hinherited⟩
    · exact own?_ne_empty h.toWellAuthored hauthored
    · exact hambient _ hinherited

end Xml

/--
An anonymous component with a service, and a reservation and an access
control entry without identifiers.
-/
def anonymousDocument : Document :=
  let start : Position := ⟨1, 1⟩
  let own name value : Xml.Attribute := ⟨none, name, value, start⟩
  let http name attributes : Xml.Tag := ⟨some Vocabulary.httpNamespace, name, attributes, start⟩
  let ace := .element (http "UrlAce" [own "Rights" "register"]) []
  let reservation := .element (http "UrlReservation" [own "Url" "http://+:80/"]) [ace]
  let service := .element ⟨none, "ServiceInstall", [own "Name" "Svc"], start⟩ [reservation]
  ⟨[], ⟨⟨none, "Component", [], start⟩, [service]⟩, []⟩

/--
**Every delivered row is well formed.**

Identifiers of rows and of the reservations they refer to are legal, authored or derived, and have
no repetition within a table.  No URL, component, principal or descriptor is empty.
-/
theorem records_wellFormed {doc : Document} {platform : Platform} {records : RecordSet}
    (h : (compile doc platform).output.records? = some records) : records.WellFormed := by
  obtain ⟨hentries, -, -⟩ := entriesWellFormed_of_records h
  obtain ⟨hreservations, ⟨rows, hrows, hflat⟩, -⟩ :=
    Document.translation?_eq_some_iff.mp (translation?_of_records h)
  refine ⟨?_, ?_, nodup_ids_of_records h, nodup_aceIds_of_records h⟩
  · intro row hrow
    obtain ⟨entry, hentry, hstands⟩ := (exists_of_map_eq_map_some hreservations).2 row hrow
    exact Place.wellFormed_of_reservation? (hentries entry hentry).2 hstands
  · intro ace hace
    rw [← hflat] at hace
    obtain ⟨own, hown, hmem⟩ := List.mem_flatten.mp hace
    obtain ⟨entry, hentry, haces⟩ := (exists_of_map_eq_map_some hrows).2 own hown
    obtain ⟨row, hrow, hmap⟩ := Place.aces?_eq_some_iff.mp haces
    obtain ⟨element, helement, hstands⟩ := (exists_of_map_eq_map_some hmap).2 ace hmem
    have hgrammar := (hentries entry hentry).2
    exact Element.wellFormed_of_aceRow? (hgrammar.aces element helement)
      (fun _ => Place.ambientPrincipal?_ne_empty)
      (Place.wellFormed_of_reservation? hgrammar hrow).id hstands

/-- Here every identifier is derived, and the principal is the account of the service. -/
theorem records_wellFormed_anonymous :
    (compile anonymousDocument .x64).output.records?
        = some (compile anonymousDocument .x64).records ∧
      (compile anonymousDocument .x64).records.WellFormed ∧
      (compile anonymousDocument .x64).records.urlReservations.map (·.url) = ["http://+:80/"] ∧
      (compile anonymousDocument .x64).records.urlAces.map (·.securityPrincipal)
        = ["NT SERVICE\\Svc"] :=
  ⟨rfl, @records_wellFormed anonymousDocument .x64 (compile anonymousDocument .x64).records rfl,
    rfl, rfl⟩

end UrlReservations
