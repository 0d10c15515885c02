/-
What is delivered is the translation of the document.

Records are delivered only by a run that went through, and such a run stores exactly the rows
it offers, so what is delivered is the translation.  The translation is then read two ways.
With attributes of the core elements taken whatever their namespace it is what is delivered,
always.  With attributes taken unqualified it is what is delivered exactly where the rows
cannot tell the two readings apart (`Place.ReadsAlike`), which is not everywhere: a component
may carry an identifier of another extension before its own.

Last, what the translation says about identifiers makes the two tables fit together.
-/
import UrlReservations.Proofs.References

namespace UrlReservations

open Xml (Element Place Document)

/-! ### From a run that went through to the translation -/

/-- What a compilation delivers, it delivers of a document that follows the grammar. -/
theorem entriesWellFormed_of_records {doc : Document} {platform : Platform} {records : RecordSet}
    (h : (compile doc platform).output.records? = some records) :
    doc.EntriesWellFormed ∧ (Session.start platform).CleanRun doc.actions ∧
      records = (compile doc platform).records := by
  have hclean : (compile doc platform).encounteredError = false := by
    by_contra hcon
    rw [Bool.not_eq_false] at hcon
    simp [Session.output, hcon] at h
  have hrun := (Session.start_perform_encounteredError_iff platform doc.actions).mp hclean
  refine ⟨(Document.faultless_actions_iff doc).mp hrun.faultless, hrun, ?_⟩
  simpa [Session.output, hclean] using h.symm

/-- The delivered rows are those the document offers. -/
theorem rows_of_records {doc : Document} {platform : Platform} {records : RecordSet}
    (h : (compile doc platform).output.records? = some records) :
    records.urlReservations = doc.actions.filterMap Action.reservation? ∧
      records.urlAces = doc.actions.filterMap Action.ace? := by
  obtain ⟨-, hrun, rfl⟩ := entriesWellFormed_of_records h
  have hgrown := Session.perform_of_cleanRun (s := Session.start platform) rfl hrun
  exact ⟨hgrown.reservations, hgrown.aces⟩

/--
The delivered records are the translation, with attributes of core
elements read as the compiler reads them.
-/
theorem translation?_of_records {doc : Document} {platform : Platform} {records : RecordSet}
    (h : (compile doc platform).output.records? = some records) :
    doc.translation? Element.nonEmptyAttribute? platform = some records := by
  obtain ⟨hentries, -, rfl⟩ := entriesWellFormed_of_records h
  have hreservations : (compile doc platform).reservations.rows
      = doc.actions.filterMap Action.reservation? :=
    (rows_of_records h).1
  have haces : (compile doc platform).aces.rows = doc.actions.filterMap Action.ace? :=
    (rows_of_records h).2
  obtain ⟨rows, hrows, hflat⟩ := Document.aces_of_wellFormed hentries
  rw [Document.translation?, Document.reservations_of_wellFormed hentries, hrows, Session.records,
    compile_references, hreservations, haces, ← hflat]
  rfl

/-! ### The rows of one entry -/

namespace Xml.Place

variable {read : Element → String → Option String} {entry : Place}

theorem reservation?_eq_some_iff {row : UrlReservation} :
    entry.reservation? read = some row ↔
      entry.owningComponentId? read = some row.componentId ∧
        entry.element.own? "Url" = some row.url ∧
        (entry.element.own? "HandleExisting").elim (some HandleExisting.replace) Choice.ofToken?
          = some row.handleExisting ∧
        row.id = (entry.element.own? "Id").elim (.derive .urlReservation
          [some row.componentId, entry.ambientPrincipal? read, some row.url]) Identifier.mk ∧
        row.sddl? = entry.element.own? "Sddl" := by
  obtain ⟨id, handleExisting, sddl?, url, componentId⟩ := row
  rw [reservation?]
  refine ⟨?_, ?_⟩
  · intro h
    obtain ⟨componentId', hcomponent, h⟩ := Option.bind_eq_some_iff.mp h
    obtain ⟨url', hurl, h⟩ := Option.bind_eq_some_iff.mp h
    obtain ⟨handling, hhandling, h⟩ := Option.bind_eq_some_iff.mp h
    cases h
    exact ⟨hcomponent, hurl, hhandling, rfl, rfl⟩
  · intro h
    obtain ⟨hcomponent, hurl, hhandling, hid, hsddl⟩ := h
    simp only at hcomponent hurl hhandling hid hsddl
    rw [hcomponent, hurl, hhandling, hid, hsddl]
    rfl

theorem aces?_eq_some_iff {rows : List UrlAce} :
    entry.aces? read = some rows ↔ ∃ row, entry.reservation? read = some row ∧
      entry.element.aces.map (Element.aceRow? row.id (entry.ambientPrincipal? read))
        = rows.map some := by
  rw [aces?, Option.bind_eq_bind, Option.bind_eq_some_iff]
  simp only [mapM_eq_some_iff]

theorem length_of_aces? {rows : List UrlAce} (h : entry.aces? read = some rows) :
    rows.length = entry.element.aces.length := by
  obtain ⟨row, -, hmap⟩ := aces?_eq_some_iff.mp h
  simpa using (congrArg List.length hmap).symm

end Xml.Place

theorem Xml.Element.aceRow?_eq_some_iff {reservationId : Identifier} {ambient? : Option String}
    {ace : Element} {row : UrlAce} :
    ace.aceRow? reservationId ambient? = some row ↔
      (ace.own? "SecurityPrincipal").or ambient? = some row.securityPrincipal ∧
        (ace.own? "Rights").elim (some Rights.all) Choice.ofToken? = some row.rights ∧
        row.id = (ace.own? "Id").elim (.derive .urlAce
          [some reservationId.text, some row.securityPrincipal, ace.own? "Rights"]) Identifier.mk ∧
        row.reservationId = reservationId := by
  obtain ⟨id, reservationId', principal, rights⟩ := row
  rw [aceRow?]
  refine ⟨?_, ?_⟩
  · intro h
    obtain ⟨principal', hprincipal, h⟩ := Option.bind_eq_some_iff.mp h
    obtain ⟨rights', hrights, h⟩ := Option.bind_eq_some_iff.mp h
    cases h
    exact ⟨hprincipal, hrights, rfl, rfl⟩
  · intro h
    obtain ⟨hprincipal, hrights, hid, hreservation⟩ := h
    simp only at hprincipal hrights hid hreservation
    rw [hprincipal, hrights, hid, hreservation]
    rfl

/-! ### Two ways of reading -/

section ReadsAlike

variable {read read' : Element → String → Option String}

/-- The rows of an entry cannot tell two ways of reading the attributes around it apart. -/
structure Xml.Place.ReadsAlike (read read' : Element → String → Option String) (entry : Place) :
    Prop where
  component : entry.owningComponentId? read' = entry.owningComponentId? read
  /-- The identifier is authored, or derived alike. -/
  id : (entry.element.own? "Id").isSome = true ∨
    Identifier.derive .urlReservation
        [entry.owningComponentId? read', entry.ambientPrincipal? read', entry.element.own? "Url"]
      = Identifier.derive .urlReservation
        [entry.owningComponentId? read, entry.ambientPrincipal? read, entry.element.own? "Url"]
  /-- The principal is the same, or no access control entry asks for it. -/
  principal : entry.ambientPrincipal? read' = entry.ambientPrincipal? read ∨
    ∀ ace ∈ entry.element.aces, (ace.own? "SecurityPrincipal").isSome = true

namespace Xml.Place

variable {entry : Place} {row : UrlReservation} {rows : List UrlAce}

/-- The row of an entry is the same exactly if its component and its identifier are. -/
theorem reservation?_eq_iff (h : entry.reservation? read = some row) :
    entry.reservation? read' = some row ↔
      entry.owningComponentId? read' = entry.owningComponentId? read ∧
        ((entry.element.own? "Id").isSome = true ∨
          Identifier.derive .urlReservation
              [entry.owningComponentId? read', entry.ambientPrincipal? read',
                entry.element.own? "Url"]
            = Identifier.derive .urlReservation
              [entry.owningComponentId? read, entry.ambientPrincipal? read,
                entry.element.own? "Url"]) := by
  obtain ⟨hcomponent, hurl, hhandling, hid, hsddl⟩ := reservation?_eq_some_iff.mp h
  rw [reservation?_eq_some_iff, hcomponent, hurl]
  refine ⟨?_, ?_⟩
  · intro h'
    obtain ⟨hcomponent', -, -, hid', -⟩ := h'
    refine ⟨hcomponent', ?_⟩
    rw [hcomponent']
    cases hauthored : entry.element.own? "Id" with
    | some id => exact .inl rfl
    | none =>
      right
      rw [hauthored, Option.elim_none] at hid hid'
      rw [← hid, ← hid']
  · intro h'
    obtain ⟨hcomponent', hsame⟩ := h'
    refine ⟨hcomponent', rfl, hhandling, ?_, hsddl⟩
    rw [hcomponent'] at hsame
    cases hauthored : entry.element.own? "Id" with
    | some id =>
      rw [hauthored, Option.elim_some] at hid
      rw [Option.elim_some, hid]
    | none =>
      rw [hauthored, Option.elim_none] at hid
      rw [hauthored] at hsame
      have hderived := hsame.resolve_left Bool.false_ne_true
      rw [Option.elim_none, hderived, hid]

/-- The rows of its access control entries then are the same exactly if their principals are. -/
theorem aces?_eq_iff (hrow : entry.reservation? read = some row)
    (hrow' : entry.reservation? read' = some row) (h : entry.aces? read = some rows) :
    entry.aces? read' = some rows ↔
      entry.ambientPrincipal? read' = entry.ambientPrincipal? read ∨
        ∀ ace ∈ entry.element.aces, (ace.own? "SecurityPrincipal").isSome = true := by
  have hmap : entry.element.aces.map (Element.aceRow? row.id (entry.ambientPrincipal? read))
      = rows.map some := by
    obtain ⟨other, hother, hmap⟩ := aces?_eq_some_iff.mp h
    rw [hrow, Option.some_inj] at hother
    rwa [hother]
  have hiff : entry.aces? read' = some rows ↔ ∀ ace ∈ entry.element.aces,
      ace.aceRow? row.id (entry.ambientPrincipal? read')
        = ace.aceRow? row.id (entry.ambientPrincipal? read) := by
    rw [aces?, hrow', Option.bind_eq_bind, Option.bind_some, mapM_eq_some_iff, ← hmap,
      List.map_inj_left]
  rw [hiff]
  refine ⟨?_, ?_⟩
  · intro hsame
    by_cases hambient : entry.ambientPrincipal? read' = entry.ambientPrincipal? read
    · exact .inl hambient
    · right
      intro ace hace
      -- An entry without a principal of its own has the ambient one in its row.
      by_contra hnone
      rw [Bool.not_eq_true, Option.isSome_eq_false_iff, Option.isNone_iff_eq_none] at hnone
      obtain ⟨aceRow, -, haceRow⟩ := (exists_of_map_eq_map_some hmap).1 ace hace
      obtain ⟨hprincipal, -⟩ := Element.aceRow?_eq_some_iff.mp haceRow
      obtain ⟨hprincipal', -⟩ := Element.aceRow?_eq_some_iff.mp ((hsame ace hace).trans haceRow)
      rw [hnone, Option.none_or] at hprincipal hprincipal'
      exact hambient (hprincipal'.trans hprincipal.symm)
  · intro hprincipals ace hace
    rcases hprincipals with hambient | howns
    · rw [hambient]
    · obtain ⟨principal, hprincipal⟩ := Option.isSome_iff_exists.mp (howns ace hace)
      rw [Element.aceRow?, Element.aceRow?, hprincipal, Option.some_or, Option.some_or]

/-- Both are the same exactly if the entry cannot tell the two ways of reading apart. -/
theorem readsAlike_iff (hrow : entry.reservation? read = some row)
    (h : entry.aces? read = some rows) :
    entry.ReadsAlike read read' ↔
      entry.reservation? read' = some row ∧ entry.aces? read' = some rows := by
  refine ⟨?_, ?_⟩
  · intro halike
    have hrow' := (reservation?_eq_iff hrow).mpr ⟨halike.component, halike.id⟩
    exact ⟨hrow', (aces?_eq_iff hrow hrow' h).mpr halike.principal⟩
  · intro hsame
    obtain ⟨hrow', h'⟩ := hsame
    obtain ⟨hcomponent, hid⟩ := (reservation?_eq_iff hrow).mp hrow'
    exact ⟨hcomponent, hid, (aces?_eq_iff hrow hrow' h).mp h'⟩

end Xml.Place

namespace Xml.Document

theorem translation?_eq_some_iff {doc : Document} {platform : Platform} {records : RecordSet} :
    doc.translation? read platform = some records ↔
      doc.entries.map (Place.reservation? read) = records.urlReservations.map some ∧
      (∃ rows : List (List UrlAce),
        doc.entries.map (Place.aces? read) = rows.map some ∧ rows.flatten = records.urlAces) ∧
      records.references = if records.urlReservations.isEmpty then [] else platform.references := by
  obtain ⟨reservations, aces, references⟩ := records
  simp only [translation?, Option.bind_eq_bind, Option.bind_eq_some_iff, mapM_eq_some_iff,
    Option.pure_def, Option.some_inj, RecordSet.mk.injEq]
  refine ⟨?_, ?_⟩
  · intro h
    obtain ⟨_, hreservations, rows, hrows, rfl, hflat, rfl⟩ := h
    exact ⟨hreservations, ⟨rows, hrows, hflat⟩, rfl⟩
  · intro h
    obtain ⟨hreservations, ⟨rows, hrows, hflat⟩, hreferences⟩ := h
    exact ⟨reservations, hreservations, rows, hrows, rfl, hflat, hreferences.symm⟩

/-- An entry has as many rows of access control entries as it has of these, however it is read. -/
theorem map_length_of_aces {entries : List Place} {rows : List (List UrlAce)}
    (h : entries.map (Place.aces? read) = rows.map some) :
    rows.map List.length = entries.map (·.element.aces.length) := by
  induction entries generalizing rows with
  | nil =>
    rw [List.map_nil, eq_comm, List.map_eq_nil_iff] at h
    rw [h]
    rfl
  | cons entry rest ih =>
    obtain ⟨first, others, rfl, hfirst, hothers⟩ := List.map_eq_cons_iff.mp h.symm
    rw [List.map_cons, List.map_cons, Place.length_of_aces? hfirst.symm, ih hothers.symm]

/--
A translation stays what it is under another reading exactly if no entry can tell the two apart.
-/
theorem translation?_iff_readsAlike {doc : Document} {platform : Platform} {records : RecordSet}
    (h : doc.translation? read platform = some records) :
    doc.translation? read' platform = some records ↔
      ∀ entry ∈ doc.entries, entry.ReadsAlike read read' := by
  obtain ⟨hreservations, ⟨rows, hrows, hflat⟩, hreferences⟩ := translation?_eq_some_iff.mp h
  have halike : ∀ entry ∈ doc.entries, entry.ReadsAlike read read' ↔
      entry.reservation? read' = entry.reservation? read ∧
        entry.aces? read' = entry.aces? read := by
    intro entry hentry
    obtain ⟨row, -, hrow⟩ := (exists_of_map_eq_map_some hreservations).1 entry hentry
    obtain ⟨own, -, hown⟩ := (exists_of_map_eq_map_some hrows).1 entry hentry
    rw [hrow, hown]
    exact Place.readsAlike_iff hrow hown
  rw [forall₂_congr halike, translation?_eq_some_iff]
  refine ⟨?_, ?_⟩
  · intro h' entry hentry
    obtain ⟨hreservations', ⟨rows', hrows', hflat'⟩, -⟩ := h'
    -- Rows of different entries are kept apart by how many each entry has.
    have hsame : rows' = rows :=
      List.eq_iff_flatten_eq.mpr
        ⟨hflat'.trans hflat.symm, (map_length_of_aces hrows').trans (map_length_of_aces hrows).symm⟩
    rw [hsame] at hrows'
    exact ⟨List.map_inj_left.mp (hreservations'.trans hreservations.symm) entry hentry,
      List.map_inj_left.mp (hrows'.trans hrows.symm) entry hentry⟩
  · intro hsame
    refine ⟨?_, ⟨rows, ?_, hflat⟩, hreferences⟩
    · rw [← hreservations]
      exact List.map_congr_left fun entry hentry => (hsame entry hentry).1
    · rw [← hrows]
      exact List.map_congr_left fun entry hentry => (hsame entry hentry).2

end Xml.Document

end ReadsAlike

/--
A reservation with an access control entry, in a component that
carries an identifier of another extension first.
-/
def namesakeDocument : Document :=
  let start : Position := ⟨1, 1⟩
  let own name value : Xml.Attribute := ⟨none, name, value, start⟩
  let http name attributes : Xml.Tag := ⟨some Vocabulary.httpNamespace, name, attributes, start⟩
  let ace := .element (http "UrlAce" [own "Id" "A", own "SecurityPrincipal" "Everyone"]) []
  let reservation := .element (http "UrlReservation" [own "Id" "R", own "Url" "http://+:80/"]) [ace]
  ⟨[], ⟨⟨none, "Component", [⟨some "urn:other", "Id", "x", start⟩, own "Id" "y"], start⟩,
    [reservation]⟩, []⟩

/-- The records of this document, for an identifier of the component. -/
def namesakeRecords (componentId : String) : RecordSet :=
  ⟨[⟨⟨"R"⟩, .replace, none, "http://+:80/", componentId⟩], [⟨⟨"A"⟩, ⟨"R"⟩, "Everyone", .all⟩],
    Platform.x86.references⟩

/--
**What is delivered is the translation of the document, up to namesakes.**

The compiler reads `Id` off a component and `Name` off a service without looking at the
namespace.  Under that reading the delivered records are the translation.  Under the reading
that takes unqualified attributes only, they are the translation exactly if no entry can tell.
-/
theorem records_eq_translation {doc : Document} {platform : Platform} {records : RecordSet}
    (h : (compile doc platform).output.records? = some records) :
    doc.translation? Element.nonEmptyAttribute? platform = some records ∧
      (doc.translation? Element.unqualified? platform = some records ↔
        ∀ entry ∈ doc.entries,
          entry.ReadsAlike Element.nonEmptyAttribute? Element.unqualified?) := by
  have htranslation := translation?_of_records h
  exact ⟨htranslation, Document.translation?_iff_readsAlike htranslation⟩

theorem records_eq_translation_namesake :
    (compile namesakeDocument .x86).output.records? = some (namesakeRecords "x") ∧
      namesakeDocument.translation? Element.nonEmptyAttribute? .x86 = some (namesakeRecords "x") ∧
      (namesakeDocument.translation? Element.unqualified? .x86 = some (namesakeRecords "x") ↔
        ∀ entry ∈ namesakeDocument.entries,
          entry.ReadsAlike Element.nonEmptyAttribute? Element.unqualified?) :=
  ⟨by decide, records_eq_translation (by decide)⟩

/-- The component is `y` for a reader of unqualified attributes, and `x` in what is delivered. -/
theorem records_ne_unqualified_translation :
    (compile namesakeDocument .x86).output.records? = some (namesakeRecords "x") ∧
      namesakeDocument.translation? Element.unqualified? .x86 = some (namesakeRecords "y") ∧
      namesakeRecords "x" ≠ namesakeRecords "y" := by
  decide

/-! ### The two tables fit together -/

namespace Xml.Place

variable {read : Element → String → Option String} {entry : Place} {row : UrlReservation}
    {rows : List UrlAce}

theorem reservationId_of_mem_aces? (hrow : entry.reservation? read = some row)
    (h : entry.aces? read = some rows) : ∀ ace ∈ rows, ace.reservationId = row.id := by
  intro ace hace
  obtain ⟨other, hother, hmap⟩ := aces?_eq_some_iff.mp h
  rw [hrow, Option.some_inj] at hother
  obtain ⟨element, -, helement⟩ := (exists_of_map_eq_map_some hmap).2 ace hace
  obtain ⟨-, -, -, hreservationId⟩ := Element.aceRow?_eq_some_iff.mp helement
  rw [hreservationId, hother]

/--
An entry that follows the grammar has a descriptor in its row, or rows beside it, and never both.
-/
theorem isSome_sddl?_iff
    (hgrammar : entry.element.WellFormedReservation (entry.ambientPrincipal? read))
    (hrow : entry.reservation? read = some row) (h : entry.aces? read = some rows) :
    row.sddl?.isSome = true ↔ rows = [] := by
  obtain ⟨-, -, -, -, hsddl⟩ := reservation?_eq_some_iff.mp hrow
  rw [hsddl, hgrammar.secured, ← List.length_eq_zero_iff, ← List.length_eq_zero_iff,
    length_of_aces? h]

end Xml.Place

theorem nodup_ids_of_records {doc : Document} {platform : Platform} {records : RecordSet}
    (h : (compile doc platform).output.records? = some records) :
    (records.urlReservations.map (·.id)).Nodup := by
  obtain ⟨-, hrun, -⟩ := entriesWellFormed_of_records h
  rw [(rows_of_records h).1]
  exact hrun.reservations

theorem nodup_aceIds_of_records {doc : Document} {platform : Platform} {records : RecordSet}
    (h : (compile doc platform).output.records? = some records) :
    (records.urlAces.map (·.id)).Nodup := by
  obtain ⟨-, hrun, -⟩ := entriesWellFormed_of_records h
  rw [(rows_of_records h).2]
  exact hrun.aces

/--
Every delivered row of an access control entry belongs to an entry of
the document, and so to its row.
-/
theorem reservation_of_mem_urlAces {doc : Document} {platform : Platform} {records : RecordSet}
    (h : (compile doc platform).output.records? = some records) {ace : UrlAce}
    (hace : ace ∈ records.urlAces) :
    ∃ row ∈ records.urlReservations, row.id = ace.reservationId ∧ row.sddl?.isSome = false := by
  obtain ⟨hentries, -, -⟩ := entriesWellFormed_of_records h
  obtain ⟨hreservations, ⟨rows, hrows, hflat⟩, -⟩ :=
    Document.translation?_eq_some_iff.mp (translation?_of_records h)
  rw [← hflat] at hace
  obtain ⟨own, hown, hmem⟩ := List.mem_flatten.mp hace
  obtain ⟨entry, hentry, haces⟩ := (exists_of_map_eq_map_some hrows).2 own hown
  obtain ⟨row, hstored, hrow⟩ := (exists_of_map_eq_map_some hreservations).1 entry hentry
  refine ⟨row, hstored, (Place.reservationId_of_mem_aces? hrow haces ace hmem).symm, ?_⟩
  rw [← Bool.not_eq_true, Place.isSome_sddl?_iff (hentries entry hentry).2 hrow haces]
  exact List.ne_nil_of_mem hmem

/--
**Every delivered reservation is secured in exactly one way, and no access control entry dangles.**

A row of an access control entry refers to exactly one row of a reservation.  A reservation has
a descriptor exactly if no row of an access control entry refers to it.
-/
theorem records_secured_exclusively {doc : Document} {platform : Platform} {records : RecordSet}
    (h : (compile doc platform).output.records? = some records) :
    (∀ ace ∈ records.urlAces, records.urlReservations.countP (·.id = ace.reservationId) = 1) ∧
      ∀ row ∈ records.urlReservations,
        row.sddl?.isSome = true ↔ ∀ ace ∈ records.urlAces, ace.reservationId ≠ row.id := by
  have hnodup := nodup_ids_of_records h
  refine ⟨?_, ?_⟩
  · intro ace hace
    obtain ⟨row, hrow, hid, -⟩ := reservation_of_mem_urlAces h hace
    have hcount := List.count_eq_one_of_mem hnodup (List.mem_map_of_mem hrow)
    rw [List.count, List.countP_map, hid] at hcount
    exact hcount
  · intro row hrow
    refine ⟨?_, ?_⟩
    · intro hsddl ace hace hrefers
      -- The row it refers to has no descriptor, and is this one as identifiers are distinct.
      obtain ⟨other, hother, hid, hnone⟩ := reservation_of_mem_urlAces h hace
      have hsame : other = row := List.inj_on_of_nodup_map hnodup hother hrow (hid.trans hrefers)
      rw [hsame, hsddl] at hnone
      exact Bool.noConfusion hnone
    · intro hunreferred
      obtain ⟨hentries, -, -⟩ := entriesWellFormed_of_records h
      obtain ⟨hreservations, ⟨rows, hrows, hflat⟩, -⟩ :=
        Document.translation?_eq_some_iff.mp (translation?_of_records h)
      obtain ⟨entry, hentry, hstands⟩ := (exists_of_map_eq_map_some hreservations).2 row hrow
      obtain ⟨own, hown, haces⟩ := (exists_of_map_eq_map_some hrows).1 entry hentry
      rw [Place.isSome_sddl?_iff (hentries entry hentry).2 hstands haces,
        List.eq_nil_iff_forall_not_mem]
      intro ace hace
      refine hunreferred ace ?_ (Place.reservationId_of_mem_aces? hstands haces ace hace)
      rw [← hflat]
      exact List.mem_flatten_of_mem hown hace

theorem records_secured_exclusively_namesake :
    (compile namesakeDocument .x86).output.records? = some (namesakeRecords "x") ∧
      (∀ ace ∈ (namesakeRecords "x").urlAces,
        (namesakeRecords "x").urlReservations.countP (·.id = ace.reservationId) = 1) ∧
      ∀ row ∈ (namesakeRecords "x").urlReservations,
        row.sddl?.isSome = true ↔ ∀ ace ∈ (namesakeRecords "x").urlAces,
          ace.reservationId ≠ row.id :=
  ⟨by decide, @records_secured_exclusively namesakeDocument .x86 (namesakeRecords "x") (by decide)⟩

end UrlReservations
