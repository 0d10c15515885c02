/-
A run is the sum of its parts.

Elements dispatched one after another share a session, and the only thing that passes from one
to the next is which identifiers are in use.  So a run goes through exactly if each element does
on a session of its own and no two of them use one identifier, and what it leaves is what the
parts leave, put together (`Session.join`).  The order matters to neither, except that the rows
come in it.

A run that goes through leaves what its actions ask for, no more and no less
(`start_perform_eq_collect`).  For most parts of a session that is a matter of concatenation.
References are the exception: a session keeps the first of each, and keeping the first of each
part by part first makes no difference (`foldl_insertNew_eraseDups`).
-/
import UrlReservations.Proofs.Dispatching
import UrlReservations.Proofs.Reporting

namespace UrlReservations

/-! ### Keeping the first of each -/

namespace Table

variable {ρ : Type} [DecidableEq ρ] {table : Table (id : ρ → ρ)} {row : ρ}

/-- A row that is there already can be left out. -/
theorem foldl_insertNew_filter (rows : List ρ) (h : row ∈ table.keys) :
    (rows.filter fun other => !other == row).foldl insertNew table
      = rows.foldl insertNew table := by
  induction rows generalizing table with
  | nil => rfl
  | cons other rest ih =>
    by_cases heq : other = row
    · subst heq
      rw [List.filter_cons_of_neg (by simp), List.foldl_cons, insertNew_of_mem h]
      exact ih h
    · rw [List.filter_cons_of_pos (by simp [heq]), List.foldl_cons, List.foldl_cons]
      exact ih (mem_keys_insertNew.mpr (.inl h))

/-- So can every row but the first of its kind. -/
theorem foldl_insertNew_eraseDups (rows : List ρ) (table : Table (id : ρ → ρ)) :
    rows.eraseDups.foldl insertNew table = rows.foldl insertNew table := by
  induction hn : rows.length using Nat.strongRecOn generalizing rows table with
  | ind n ih =>
    cases rows with
    | nil => rfl
    | cons row rest =>
      have hlength := List.length_filter_le (fun other => !other == row) rest
      have hlt : (rest.filter fun other => !other == row).length < n := by
        rw [List.length_cons] at hn
        omega
      rw [List.eraseDups_cons, List.foldl_cons, List.foldl_cons, ih _ hlt _ _ rfl]
      exact foldl_insertNew_filter rest (mem_keys_insertNew.mpr (.inr rfl))

theorem foldl_insertNew_rows (rows : List ρ) :
    (rows.foldl insertNew (empty : Table (id : ρ → ρ))).rows = rows.eraseDups :=
  rows_foldl_insertNew_empty rows

theorem eraseDups_flatMap_eraseDups {β : Type} (l : List β) (f : β → List ρ) :
    (l.flatMap fun b => (f b).eraseDups).eraseDups = (l.flatMap f).eraseDups := by
  rw [← foldl_insertNew_rows, ← foldl_insertNew_rows, List.foldl_flatMap, List.foldl_flatMap]
  simp only [foldl_insertNew_eraseDups]

end Table

/-! ### What a run that goes through leaves -/

/-- The references an action makes if it goes through. -/
def Action.references (platform : Platform) : Action → List Reference
  | .always (.addReference reference) => [reference]
  | .emitReservation .. => platform.references
  | _ => []

namespace Session

theorem act_references {s : Session} (hs : s.encounteredError = false) (action : Action) :
    (s.act .strict action).references
      = (action.references s.platform).foldl Table.insertNew s.references := by
  have hopen := gateOpen_of_noError .strict hs
  cases action with
  | always operation =>
    cases operation with
    | report d => rfl
    | addReservation pos row => exact s.addReservation_references pos row
    | addAce pos row => exact (s.addAce_references pos row).1
    | addReference reference => rfl
    | extensionAttribute item => rfl
    | extensionElement item => rfl
  | emitReservation pos row =>
    rw [act, if_pos hopen]
    show ((s.addReservation pos row).references.insertNew _).insertNew _ = _
    rw [addReservation_references]
    rfl
  | emitAce pos row =>
    rw [act, if_pos hopen]
    exact (s.addAce_references pos row).1

theorem perform_references {s : Session} {actions : List Action}
    (h : (s.perform .strict actions).encounteredError = false) :
    (s.perform .strict actions).references
      = (actions.flatMap (Action.references s.platform)).foldl Table.insertNew s.references := by
  induction actions generalizing s with
  | nil => rfl
  | cons action rest ih =>
    have hs := noError_before h
    have hplatform := (stable_platform s.platform).act (s := s) rfl .strict action
    rw [perform_cons, ih h, act_references hs, hplatform, List.flatMap_cons, List.foldl_append]

/-- All that some actions ask for, put into one session. -/
def collect (platform : Platform) (actions : List Action) : Session where
  platform := platform
  diagnostics := actions.flatMap Action.reports
  encounteredError := false
  reservations := ⟨actions.filterMap Action.reservation?⟩
  aces := ⟨actions.filterMap Action.ace?⟩
  references := ⟨(actions.flatMap (Action.references platform)).eraseDups⟩
  extensionAttributes := actions.filterMap Action.extensionAttribute?
  extensionElements := actions.filterMap Action.extensionElement?

/-- **A run that ends without an error leaves all that its actions ask for.** -/
theorem start_perform_eq_collect {platform : Platform} {actions : List Action}
    (h : ((start platform).perform .strict actions).NoError) :
    (start platform).perform .strict actions = collect platform actions := by
  have herror := (start_perform_noError_iff platform .strict actions).mp h
  have hgrown := perform_of_cleanRun (s := start platform) rfl
    ((start_perform_encounteredError_iff platform actions).mp herror)
  have happends := perform_appends .strict (start platform) actions
  have hreferences := congrArg Table.rows (perform_references herror)
  have hdiagnostics : ((start platform).perform .strict actions).diagnostics
      = actions.flatMap Action.reports := by
    rw [← start_perform_diagnostics platform .strict actions, eq_comm, List.filter_eq_self]
    intro d hd
    rw [Bool.not_eq_true', ← Bool.not_eq_true]
    intro hduplicate
    exact absurd ((h d hd).symm.trans (Diagnostic.isError_of_isDuplicate hduplicate))
      Bool.false_ne_true
  apply Session.ext
  · exact (stable_platform platform).perform rfl .strict actions
  · exact hdiagnostics
  · exact herror
  · exact Table.ext hgrown.reservations
  · exact Table.ext hgrown.aces
  · exact Table.ext (hreferences.trans (Table.foldl_insertNew_rows _))
  · exact happends.attributes
  · exact happends.elements

/-! ### Sessions put together -/

/-- Sessions put together, one after another; of references made by several the first is kept. -/
def join (platform : Platform) (parts : List Session) : Session where
  platform := platform
  diagnostics := parts.flatMap (·.diagnostics)
  encounteredError := false
  reservations := ⟨parts.flatMap (·.reservations.rows)⟩
  aces := ⟨parts.flatMap (·.aces.rows)⟩
  references := ⟨(parts.flatMap (·.references.rows)).eraseDups⟩
  extensionAttributes := parts.flatMap (·.extensionAttributes)
  extensionElements := parts.flatMap (·.extensionElements)

theorem join_collect {β : Type} (platform : Platform) (l : List β) (f : β → List Action) :
    join platform (l.map fun b => collect platform (f b)) = collect platform (l.flatMap f) := by
  simp only [join, collect, List.flatMap_map, List.flatMap_assoc, List.filterMap_flatMap,
    Table.eraseDups_flatMap_eraseDups]

end Session

/-! ### Runs of dispatches -/

namespace Registry

variable (registry : Registry) (platform : Platform)

/-- What each of some dispatches leaves on a new session of its own. -/
def alone (dispatches : List Dispatch) : List Session :=
  dispatches.map fun d => registry.run .strict (Session.start platform) [d]

variable {registry platform} {dispatches : List Dispatch}

theorem alone_eq : registry.alone platform dispatches
    = dispatches.map fun d => (Session.start platform).perform .strict (registry.actions [d]) := by
  simp only [alone, run_eq_perform]

theorem actions_eq_flatMap (dispatches : List Dispatch) :
    registry.actions dispatches = dispatches.flatMap fun d => registry.actions [d] := by
  simp [actions]

/-- Where each goes through alone, what they leave is what their actions ask for. -/
theorem alone_eq_collect (h : ∀ part ∈ registry.alone platform dispatches, part.NoError) :
    registry.alone platform dispatches
      = dispatches.map fun d => Session.collect platform (registry.actions [d]) := by
  rw [alone_eq] at h ⊢
  refine List.map_congr_left fun d hd => ?_
  exact Session.start_perform_eq_collect (h _ (List.mem_map_of_mem hd))

/-- **A run goes through exactly if** each part does alone, and no two parts use one identifier. -/
theorem run_noError_iff : (registry.run .strict (Session.start platform) dispatches).NoError ↔
    (∀ part ∈ registry.alone platform dispatches, part.NoError) ∧
      ((registry.alone platform dispatches).flatMap (·.reservations.keys)).Nodup ∧
      ((registry.alone platform dispatches).flatMap (·.aces.keys)).Nodup := by
  rw [run_eq_perform, Session.start_perform_noError_iff, Session.start_perform_encounteredError_iff,
    Session.start_cleanRun_iff, actions_eq_flatMap, Action.faultless_flatMap,
    List.filterMap_flatMap, List.filterMap_flatMap, List.map_flatMap, List.map_flatMap]
  refine ⟨?_, ?_⟩
  · intro h
    obtain ⟨hfaultless, hreservations, haces⟩ := h
    have halone : ∀ part ∈ registry.alone platform dispatches, part.NoError := by
      intro part hpart
      rw [alone_eq] at hpart
      obtain ⟨d, hd, rfl⟩ := List.mem_map.mp hpart
      rw [Session.start_perform_noError_iff, Session.start_perform_encounteredError_iff,
        Session.start_cleanRun_iff]
      exact ⟨hfaultless d hd, (List.nodup_flatMap.mp hreservations).1 d hd,
        (List.nodup_flatMap.mp haces).1 d hd⟩
    refine ⟨halone, ?_, ?_⟩
    · rw [alone_eq_collect halone, List.flatMap_map]
      exact hreservations
    · rw [alone_eq_collect halone, List.flatMap_map]
      exact haces
  · intro h
    obtain ⟨halone, hreservations, haces⟩ := h
    rw [alone_eq_collect halone, List.flatMap_map] at hreservations haces
    refine ⟨?_, hreservations, haces⟩
    intro d hd
    rw [alone_eq] at halone
    have hpart := halone _ (List.mem_map_of_mem hd)
    rw [Session.start_perform_noError_iff, Session.start_perform_encounteredError_iff] at hpart
    exact hpart.faultless

/-- **What is left by a run that goes through** is what its parts leave, put together. -/
theorem run_eq_join (h : (registry.run .strict (Session.start platform) dispatches).NoError) :
    registry.run .strict (Session.start platform) dispatches
      = Session.join platform (registry.alone platform dispatches) := by
  have halone := (run_noError_iff.mp h).1
  rw [run_eq_perform] at h ⊢
  rw [alone_eq_collect halone, Session.join_collect, ← actions_eq_flatMap]
  exact Session.start_perform_eq_collect h

theorem alone_perm {others : List Dispatch} (h : others.Perm dispatches) :
    (registry.alone platform others).Perm (registry.alone platform dispatches) := h.map _

/-- Whether a run goes through does not depend on the order. -/
theorem run_noError_perm {others : List Dispatch} (h : others.Perm dispatches) :
    (registry.run .strict (Session.start platform) others).NoError ↔
      (registry.run .strict (Session.start platform) dispatches).NoError := by
  have halone : (registry.alone platform others).Perm (registry.alone platform dispatches) :=
    alone_perm h
  rw [run_noError_iff, run_noError_iff]
  refine and_congr ?_ (and_congr ?_ ?_)
  · exact ⟨fun hall part hpart => hall part (halone.mem_iff.mpr hpart),
      fun hall part hpart => hall part (halone.mem_iff.mp hpart)⟩
  · exact (halone.flatMap_right _).nodup_iff
  · exact (halone.flatMap_right _).nodup_iff

end Registry

/--
**Runs are put together from their parts, in any order.**

Elements dispatched in turn on one new session, under any registry, leave no error exactly if
each leaves none on a new session of its own and the identifiers these sessions hold have no
repetition, in either table.  What is left then is what these sessions hold, one after another,
with the first of each reference.  So any other order goes through or fails alike, and if it goes
through it leaves the same rows in that order.
-/
theorem run_composes (registry : Registry) (platform : Platform) (dispatches : List Dispatch) :
    let run := registry.run .strict (Session.start platform)
    let alone := registry.alone platform
    ((run dispatches).NoError ↔ (∀ part ∈ alone dispatches, part.NoError) ∧
      ((alone dispatches).flatMap (·.reservations.keys)).Nodup ∧
        ((alone dispatches).flatMap (·.aces.keys)).Nodup) ∧
    ((run dispatches).NoError → run dispatches = Session.join platform (alone dispatches)) ∧
    ∀ others, others.Perm dispatches →
      ((run others).NoError ↔ (run dispatches).NoError) ∧
      ((run dispatches).NoError → run others = Session.join platform (alone others) ∧
        (run others).reservations.rows.Perm (run dispatches).reservations.rows ∧
        (run others).aces.rows.Perm (run dispatches).aces.rows) := by
  intro run alone
  refine ⟨Registry.run_noError_iff, Registry.run_eq_join, ?_⟩
  intro others hperm
  refine ⟨Registry.run_noError_perm hperm, ?_⟩
  intro h
  have hjoin : run dispatches = Session.join platform (alone dispatches) := Registry.run_eq_join h
  have hother : run others = Session.join platform (alone others) :=
    Registry.run_eq_join ((Registry.run_noError_perm hperm).mpr h)
  have halone : (alone others).Perm (alone dispatches) := Registry.alone_perm hperm
  rw [hjoin, hother]
  exact ⟨rfl, halone.flatMap_right _, halone.flatMap_right _⟩

end UrlReservations
