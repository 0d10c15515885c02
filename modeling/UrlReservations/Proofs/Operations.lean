/-
Whatever a host does with a session.

Readers are one way to drive a session.  A host may as well report, add and refer in any order,
and the parts of a session still have to agree with one another and with what was done: the flag
with the diagnostics, each table with the rows offered to it, the references with those made.

The two tables refuse a used identifier aloud and the references pass over a repetition in
silence, but what is left in the table is the same, `Table.insertNew`.  So every table is a fold of
insertions over what was offered (`apply_tables`), and such a fold keeps the first row of each key
(`rows_foldl_insertNew`).  That is one argument for all three.
-/
import UrlReservations.Proofs.Run

namespace UrlReservations

/-! ### The first row of each key -/

namespace Table

variable {ρ κ : Type} [DecidableEq κ] {key : ρ → κ} {table : Table key} {row : ρ}

/-- Of some rows, the first of each key, in order. -/
def firstOfEach (key : ρ → κ) (rows : List ρ) : List ρ := rows.eraseDupsBy fun a b => key a == key b

theorem insertNew_of_mem (h : key row ∈ table.keys) : table.insertNew row = table := by
  rw [insertNew, insert?_of_mem h]
  rfl

theorem insertNew_of_notMem (h : key row ∉ table.keys) :
    table.insertNew row = ⟨table.rows ++ [row]⟩ := by
  rw [insertNew, insert?_of_notMem h]
  rfl

theorem mem_keys_insertNew {k : κ} :
    k ∈ (table.insertNew row).keys ↔ k ∈ table.keys ∨ k = key row := by
  by_cases h : key row ∈ table.keys
  · rw [insertNew_of_mem h]
    refine ⟨.inl, ?_⟩
    rintro (hk | rfl)
    · exact hk
    · exact h
  · rw [insertNew_of_notMem h]
    simp [keys]

theorem nodup_keys_insertNew (htable : table.keys.Nodup) : (table.insertNew row).keys.Nodup := by
  by_cases h : key row ∈ table.keys
  · rw [insertNew_of_mem h]
    exact htable
  · rw [insertNew_of_notMem h, keys, List.map_append]
    refine List.Nodup.append htable (List.nodup_singleton _) ?_
    simpa [keys] using h

theorem mem_keys_foldl_insertNew {k : κ} (rows : List ρ) (table : Table key) :
    k ∈ (rows.foldl insertNew table).keys ↔ k ∈ table.keys ∨ k ∈ rows.map key := by
  induction rows generalizing table with
  | nil => simp
  | cons row rest ih =>
    rw [List.foldl_cons, ih, mem_keys_insertNew, List.map_cons, List.mem_cons, or_assoc]

theorem nodup_keys_foldl_insertNew {table : Table key} (htable : table.keys.Nodup) (rows : List ρ) :
    (rows.foldl insertNew table).keys.Nodup := by
  induction rows generalizing table with
  | nil => exact htable
  | cons row rest ih => exact ih (nodup_keys_insertNew htable)

/--
**Rows inserted in turn leave the first of each key**, apart from keys that were there before.
-/
theorem rows_foldl_insertNew (rows : List ρ) (table : Table key) :
    (rows.foldl insertNew table).rows
      = table.rows ++ firstOfEach key (rows.filter fun row => key row ∉ table.keys) := by
  induction rows generalizing table with
  | nil => exact (List.append_nil _).symm
  | cons row rest ih =>
    rw [List.foldl_cons, ih]
    by_cases h : key row ∈ table.keys
    · rw [insertNew_of_mem h, List.filter_cons_of_neg (by simpa using h)]
    · -- from now on the key of the row is taken, and the rest is filtered by it as well
      have hkeys : ∀ other, decide (key other ∉ (⟨table.rows ++ [row]⟩ : Table key).keys)
          = (decide (key other ∉ table.keys) && decide ((key other == key row) = false)) := by
        intro other
        simp [keys]
      rw [insertNew_of_notMem h, List.filter_cons_of_pos (by simpa using h), firstOfEach,
        firstOfEach, List.eraseDupsBy_cons, List.filter_filter, List.append_assoc,
        List.singleton_append]
      simp only [hkeys, Bool.and_comm]

/-- Rows inserted into an empty table leave the first of each key. -/
theorem rows_foldl_insertNew_empty (rows : List ρ) :
    (rows.foldl insertNew (empty : Table key)).rows = firstOfEach key rows := by
  rw [rows_foldl_insertNew]
  simp [empty, keys]

end Table

/-! ### What operations offer -/

namespace Operation

/-- The row an operation offers to the reservation table. -/
def reservation? : Operation → Option UrlReservation
  | addReservation _ row => some row
  | _ => none

/-- The row an operation offers to the entry table. -/
def ace? : Operation → Option UrlAce
  | addAce _ row => some row
  | _ => none

/-- The reference an operation makes. -/
def reference? : Operation → Option Reference
  | addReference reference => some reference
  | _ => none

end Operation

namespace Session

/-- Carry out operations in order. -/
def applyAll (s : Session) (operations : List Operation) : Session := operations.foldl apply s

/-- The gate has no say in operations. -/
theorem applyAll_eq_perform (policy : Policy) (s : Session) (operations : List Operation) :
    s.applyAll operations = s.perform policy (operations.map .always) := by
  rw [perform, List.foldl_map]
  rfl

theorem report_of_isError (s : Session) {d : Diagnostic} (h : d.isError = true) :
    s.report d = { s with diagnostics := s.diagnostics ++ [d], encounteredError := true } := by
  rw [report, h, Bool.or_true]

theorem addReservation_reservations (s : Session) (pos : Position) (row : UrlReservation) :
    (s.addReservation pos row).reservations = s.reservations.insertNew row := by
  by_cases h : row.id ∈ s.reservations.keys
  · rw [addReservation_of_mem h, Table.insertNew_of_mem h]
    rfl
  · rw [addReservation_of_notMem h, Table.insertNew_of_notMem h]

theorem addAce_aces (s : Session) (pos : Position) (row : UrlAce) :
    (s.addAce pos row).aces = s.aces.insertNew row := by
  by_cases h : row.id ∈ s.aces.keys
  · rw [addAce_of_mem h, Table.insertNew_of_mem h]
    rfl
  · rw [addAce_of_notMem h, Table.insertNew_of_notMem h]

theorem addReservation_aces (s : Session) (pos : Position) (row : UrlReservation) :
    (s.addReservation pos row).aces = s.aces := by
  by_cases h : row.id ∈ s.reservations.keys
  · rw [addReservation_of_mem h]
    rfl
  · rw [addReservation_of_notMem h]

theorem addReservation_references (s : Session) (pos : Position) (row : UrlReservation) :
    (s.addReservation pos row).references = s.references := by
  by_cases hmem : row.id ∈ s.reservations.keys
  · rw [addReservation_of_mem hmem]
    rfl
  · rw [addReservation_of_notMem hmem]

theorem addAce_references (s : Session) (pos : Position) (row : UrlAce) :
    (s.addAce pos row).references = s.references ∧
      (s.addAce pos row).reservations = s.reservations := by
  by_cases hmem : row.id ∈ s.aces.keys
  · rw [addAce_of_mem hmem]
    exact ⟨rfl, rfl⟩
  · rw [addAce_of_notMem hmem]
    exact ⟨rfl, rfl⟩

/--
An operation inserts what it offers into the table it offers it to,
and leaves the other tables alone.
-/
theorem apply_tables (s : Session) (operation : Operation) :
    (s.apply operation).reservations
        = operation.reservation?.toList.foldl Table.insertNew s.reservations ∧
      (s.apply operation).aces = operation.ace?.toList.foldl Table.insertNew s.aces ∧
      (s.apply operation).references
        = operation.reference?.toList.foldl Table.insertNew s.references := by
  cases operation with
  | addReservation pos row =>
    exact ⟨s.addReservation_reservations pos row, s.addReservation_aces pos row,
      s.addReservation_references pos row⟩
  | addAce pos row =>
    obtain ⟨hreferences, hreservations⟩ := s.addAce_references pos row
    exact ⟨hreservations, s.addAce_aces pos row, hreferences⟩
  | _ => exact ⟨rfl, rfl, rfl⟩

/-- So do operations in turn. -/
theorem applyAll_tables (s : Session) (operations : List Operation) :
    (s.applyAll operations).reservations
        = (operations.filterMap Operation.reservation?).foldl Table.insertNew s.reservations ∧
      (s.applyAll operations).aces
        = (operations.filterMap Operation.ace?).foldl Table.insertNew s.aces ∧
      (s.applyAll operations).references
        = (operations.filterMap Operation.reference?).foldl Table.insertNew s.references := by
  induction operations generalizing s with
  | nil => exact ⟨rfl, rfl, rfl⟩
  | cons operation rest ih =>
    obtain ⟨hreservations, haces, hreferences⟩ := ih (s.apply operation)
    obtain ⟨hreservation, hace, hreference⟩ := s.apply_tables operation
    simp only [filterMap_cons_eq, List.foldl_append, ← hreservation, ← hace, ← hreference]
    exact ⟨hreservations, haces, hreferences⟩

/-! ### What a session is after operations -/

/-- The parts of a session agree with one another and with the operations that led to it. -/
structure AccountsFor (s : Session) (operations : List Operation) : Prop where
  flag : s.encounteredError = true ↔ ∃ d ∈ s.diagnostics, d.isError = true
  reservations : s.reservations.rows
    = Table.firstOfEach UrlReservation.id (operations.filterMap Operation.reservation?)
  aces : s.aces.rows = Table.firstOfEach UrlAce.id (operations.filterMap Operation.ace?)
  references : s.references.rows = (operations.filterMap Operation.reference?).eraseDups
  reservationIds : s.reservations.keys.Nodup
  aceIds : s.aces.keys.Nodup
  output : s.output.diagnostics = s.diagnostics ∧ s.output.records?
    = if ∃ d ∈ s.diagnostics, d.isError = true then none
      else some ⟨s.reservations.rows, s.aces.rows, s.references.rows⟩

theorem start_accountsFor (platform : Platform) (operations : List Operation) :
    ((start platform).applyAll operations).AccountsFor operations := by
  obtain ⟨hreservations, haces, hreferences⟩ := (start platform).applyAll_tables operations
  have hagrees : ((start platform).applyAll operations).FlagAgrees := by
    rw [applyAll_eq_perform .strict]
    exact stable_flagAgrees.perform (start_flagAgrees platform) .strict _
  have hflag := hagrees
  rw [FlagAgrees, Bool.eq_iff_iff, List.any_eq_true] at hflag
  have hreservationIds : (start platform).reservations.keys.Nodup := List.nodup_nil
  have haceIds : (start platform).aces.keys.Nodup := List.nodup_nil
  refine ⟨hflag, ?_, ?_, ?_, ?_, ?_, rfl, ?_⟩
  · rw [hreservations]
    exact Table.rows_foldl_insertNew_empty _
  · rw [haces]
    exact Table.rows_foldl_insertNew_empty _
  · rw [hreferences]
    exact Table.rows_foldl_insertNew_empty _
  · rw [hreservations]
    exact Table.nodup_keys_foldl_insertNew hreservationIds _
  · rw [haces]
    exact Table.nodup_keys_foldl_insertNew haceIds _
  · simp only [output, hflag]
    rfl

/--
An identifier is in use in a table exactly if it came with a row that was offered to the table.
-/
theorem mem_keys_applyAll (platform : Platform) (operations : List Operation) (id : Identifier) :
    (id ∈ ((start platform).applyAll operations).reservations.keys ↔
        id ∈ (operations.filterMap Operation.reservation?).map (·.id)) ∧
      (id ∈ ((start platform).applyAll operations).aces.keys ↔
        id ∈ (operations.filterMap Operation.ace?).map (·.id)) := by
  obtain ⟨hreservations, haces, -⟩ := (start platform).applyAll_tables operations
  rw [hreservations, haces, Table.mem_keys_foldl_insertNew, Table.mem_keys_foldl_insertNew]
  simp [start, Table.empty, Table.keys]

end Session

/--
**Whatever operations are carried out, the session accounts for them.**

After any operations on a new session: the flag says whether an error is among the diagnostics;
each table holds the first row offered for each identifier, in order, and the references are those
made without repetitions; the result holds these tables exactly if there is no error.  A row that
is then added under an identifier offered to its table before changes no table and is reported,
once and at its position; any other is stored, and nothing else happens.  The tables do not share
their identifiers.
-/
theorem operations_accounted (platform : Platform) (operations : List Operation) :
    let s := (Session.start platform).applyAll operations
    s.AccountsFor operations ∧
    (∀ pos row, s.apply (.addReservation pos row) =
      if row.id ∈ (operations.filterMap Operation.reservation?).map (·.id) then
        { s with
          diagnostics :=
            s.diagnostics ++ [⟨pos, .duplicateSymbol "WixHttpUrlReservation" row.id.text⟩]
          encounteredError := true }
      else { s with reservations := ⟨s.reservations.rows ++ [row]⟩ }) ∧
    (∀ pos row, s.apply (.addAce pos row) =
      if row.id ∈ (operations.filterMap Operation.ace?).map (·.id) then
        { s with
          diagnostics := s.diagnostics ++ [⟨pos, .duplicateSymbol "WixHttpUrlAce" row.id.text⟩]
          encounteredError := true }
      else { s with aces := ⟨s.aces.rows ++ [row]⟩ }) ∧
    ∀ id, ∃ operations', let t := (Session.start platform).applyAll operations'
      t.diagnostics = [] ∧ id ∈ t.reservations.keys ∧ id ∈ t.aces.keys := by
  intro s
  have hkeys := fun id => Session.mem_keys_applyAll platform operations id
  refine ⟨Session.start_accountsFor platform operations, ?_, ?_, ?_⟩
  · intro pos row
    rw [Session.apply]
    split
    · rename_i hused
      exact (Session.addReservation_of_mem ((hkeys row.id).1.mpr hused) pos).trans
        (s.report_of_isError rfl)
    · rename_i hunused
      exact Session.addReservation_of_notMem (fun hmem => hunused ((hkeys row.id).1.mp hmem)) pos
  · intro pos row
    rw [Session.apply]
    split
    · rename_i hused
      exact (Session.addAce_of_mem ((hkeys row.id).2.mpr hused) pos).trans (s.report_of_isError rfl)
    · rename_i hunused
      exact Session.addAce_of_notMem (fun hmem => hunused ((hkeys row.id).2.mp hmem)) pos
  · intro id
    refine ⟨[.addReservation .start ⟨id, default, none, "", ""⟩,
      .addAce .start ⟨id, id, "", default⟩], ?_⟩
    refine ⟨rfl, ?_, ?_⟩ <;> exact List.mem_singleton_self id

end UrlReservations
