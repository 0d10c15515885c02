/-
What a run of actions adds to a session.

An action reports the same diagnostic on every session and offers the same row; only the fate
of its row depends on what was there before.  The parts that depend on nothing are named first
(`Action.diagnostic?` and its neighbours).  What no operation takes away, no run takes away
(`Stable`), and that is the only induction over actions most invariants need.

The run that matters for the result is the one that ends without an error.  `CleanOn` says
of one action when that is, on a session that is free of errors itself: it reports no error,
and its row, if it has one, finds its identifier unused.  Over a whole run the second half
becomes a statement about the rows alone: their identifiers, together with those already
stored, have no repetition.  `perform_encounteredError_iff` is that argument, and
`perform_of_cleanRun` adds that such a run stores every row it offers, in order.
-/
import Mathlib.Data.List.Nodup
import UrlReservations.Session

namespace UrlReservations

@[simp] theorem Diagnostic.isError_mk (pos : Position) (message : Message) :
    (⟨pos, message⟩ : Diagnostic).isError = message.isError := rfl

@[simp] theorem ExtensionItem.attributeWarning_isError (item : ExtensionItem) :
    item.attributeWarning.isError = false := rfl

@[simp] theorem ExtensionItem.elementWarning_isError (item : ExtensionItem) :
    item.elementWarning.isError = false := rfl

namespace Table

variable {ρ κ : Type} {key : ρ → κ}

theorem insert?_of_notMem [DecidableEq κ] {table : Table key} {row : ρ} (h : key row ∉ table.keys) :
    table.insert? row = some ⟨table.rows ++ [row]⟩ := by
  rw [insert?, if_neg h]

theorem insert?_of_mem [DecidableEq κ] {table : Table key} {row : ρ} (h : key row ∈ table.keys) :
    table.insert? row = none := by
  rw [insert?, if_pos h]

end Table

namespace Action

/-! ### What an action says on every session -/

/-- The diagnostic an action reports, whatever was there before. -/
def diagnostic? : Action → Option Diagnostic
  | .always (.report d) => some d
  | .always (.extensionAttribute item) => some item.attributeWarning
  | .always (.extensionElement item) => some item.elementWarning
  | _ => none

/-- The row an action offers to the reservation table. -/
def reservation? : Action → Option UrlReservation
  | .always (.addReservation _ row) | .emitReservation _ row => some row
  | _ => none

/-- The row an action offers to the entry table. -/
def ace? : Action → Option UrlAce
  | .always (.addAce _ row) | .emitAce _ row => some row
  | _ => none

@[simp] theorem diagnostic?_forwardAttribute (element : Xml.Element) (a : Xml.Attribute) :
    (forwardAttribute element a).diagnostic?
      = some (ExtensionItem.ofAttribute element a).attributeWarning := rfl

@[simp] theorem diagnostic?_forwardElement (parent element : Xml.Element) :
    (forwardElement parent element).diagnostic?
      = some (ExtensionItem.ofElement parent element).elementWarning := rfl

@[simp] theorem diagnostic?_report (d : Diagnostic) : (report d).diagnostic? = some d := rfl

@[simp] theorem reservation?_report (d : Diagnostic) : (report d).reservation? = none := rfl

@[simp] theorem ace?_report (d : Diagnostic) : (report d).ace? = none := rfl

@[simp] theorem diagnostic?_emitReservation (pos : Position) (row : UrlReservation) :
    (emitReservation pos row).diagnostic? = none := rfl

@[simp] theorem reservation?_emitReservation (pos : Position) (row : UrlReservation) :
    (emitReservation pos row).reservation? = some row := rfl

@[simp] theorem ace?_emitReservation (pos : Position) (row : UrlReservation) :
    (emitReservation pos row).ace? = none := rfl

@[simp] theorem diagnostic?_emitAce (pos : Position) (row : UrlAce) :
    (emitAce pos row).diagnostic? = none := rfl

@[simp] theorem reservation?_emitAce (pos : Position) (row : UrlAce) :
    (emitAce pos row).reservation? = none := rfl

@[simp] theorem ace?_emitAce (pos : Position) (row : UrlAce) : (emitAce pos row).ace? = some row :=
  rfl

/--
An action goes through on a session: it reports no error, and its row finds its identifier unused.
-/
structure CleanOn (s : Session) (action : Action) : Prop where
  warning : ∀ d ∈ action.diagnostic?, d.isError = false
  reservation : ∀ row ∈ action.reservation?, row.id ∉ s.reservations.keys
  ace : ∀ row ∈ action.ace?, row.id ∉ s.aces.keys

/-! ### Actions that report no error -/

/-- No action of a list reports an error. -/
def Faultless (actions : List Action) : Prop :=
  ∀ d ∈ actions.filterMap diagnostic?, d.isError = false

@[simp] theorem faultless_nil : Faultless [] := by
  intro d hd
  simp at hd

theorem faultless_append (first second : List Action) :
    Faultless (first ++ second) ↔ Faultless first ∧ Faultless second := by
  rw [Faultless, List.filterMap_append, List.forall_mem_append]
  rfl

theorem faultless_flatMap {β : Type} (l : List β) (f : β → List Action) :
    Faultless (l.flatMap f) ↔ ∀ b ∈ l, Faultless (f b) := by
  induction l with
  | nil => simp
  | cons b rest ih => rw [List.flatMap_cons, faultless_append, ih, List.forall_mem_cons]

theorem faultless_reports (diagnostics : List Diagnostic) :
    Faultless (diagnostics.map report) ↔ ∀ d ∈ diagnostics, d.isError = false := by
  have hmap : (diagnostics.map report).filterMap diagnostic? = diagnostics := by
    rw [List.filterMap_map]
    exact List.filterMap_some
  rw [Faultless, hmap]

theorem faultless_report (d : Diagnostic) : Faultless [report d] ↔ d.isError = false := by
  simpa using faultless_reports [d]

@[simp] theorem faultless_forwardAttribute (element : Xml.Element) (a : Xml.Attribute) :
    Faultless [forwardAttribute element a] := by
  simp [Faultless]

@[simp] theorem faultless_forwardElement (parent element : Xml.Element) :
    Faultless [forwardElement parent element] := by
  simp [Faultless]

/-! ### Remarks -/

/-- Whether an action only reports, or records markup of other extensions. -/
def isRemark : Action → Bool
  | .always (.report _) | .always (.extensionAttribute _) | .always (.extensionElement _) => true
  | _ => false

@[simp] theorem isRemark_report (d : Diagnostic) : (report d).isRemark = true := rfl

@[simp] theorem isRemark_forwardAttribute (element : Xml.Element) (a : Xml.Attribute) :
    (forwardAttribute element a).isRemark = true := rfl

@[simp] theorem isRemark_forwardElement (parent element : Xml.Element) :
    (forwardElement parent element).isRemark = true := rfl

theorem reservation?_of_isRemark {action : Action} (h : action.isRemark = true) :
    action.reservation? = none := by
  unfold isRemark at h
  split at h <;> first | rfl | simp at h

theorem ace?_of_isRemark {action : Action} (h : action.isRemark = true) : action.ace? = none := by
  unfold isRemark at h
  split at h <;> first | rfl | simp at h

/-- A remark goes through if it is not an error. -/
theorem cleanOn_of_isRemark {s : Session} {action : Action} (hremark : action.isRemark = true)
    (h : ∀ d ∈ action.diagnostic?, d.isError = false) : action.CleanOn s := by
  refine ⟨h, ?_, ?_⟩
  · rw [reservation?_of_isRemark hremark]
    simp
  · rw [ace?_of_isRemark hremark]
    simp

theorem rows_of_remarks {actions : List Action} (h : ∀ action ∈ actions, action.isRemark = true) :
    actions.filterMap reservation? = [] ∧ actions.filterMap ace? = [] := by
  rw [List.filterMap_eq_nil_iff, List.filterMap_eq_nil_iff]
  exact ⟨fun action haction => reservation?_of_isRemark (h action haction),
    fun action haction => ace?_of_isRemark (h action haction)⟩

end Action

namespace Session

/-! ### Adding a row -/

theorem addReservation_of_notMem {s : Session} {row : UrlReservation}
    (h : row.id ∉ s.reservations.keys) (pos : Position) :
    s.addReservation pos row = { s with reservations := ⟨s.reservations.rows ++ [row]⟩ } := by
  rw [addReservation, Table.insert?_of_notMem h]

theorem addReservation_of_mem {s : Session} {row : UrlReservation}
    (h : row.id ∈ s.reservations.keys) (pos : Position) :
    s.addReservation pos row
      = s.report ⟨pos, .duplicateSymbol Vocabulary.urlReservationTable row.id.text⟩ := by
  rw [addReservation, Table.insert?_of_mem h]

theorem addAce_of_notMem {s : Session} {row : UrlAce} (h : row.id ∉ s.aces.keys) (pos : Position) :
    s.addAce pos row = { s with aces := ⟨s.aces.rows ++ [row]⟩ } := by
  rw [addAce, Table.insert?_of_notMem h]

theorem addAce_of_mem {s : Session} {row : UrlAce} (h : row.id ∈ s.aces.keys) (pos : Position) :
    s.addAce pos row = s.report ⟨pos, .duplicateSymbol Vocabulary.urlAceTable row.id.text⟩ := by
  rw [addAce, Table.insert?_of_mem h]

@[simp] theorem report_diagnostics (s : Session) (d : Diagnostic) :
    (s.report d).diagnostics = s.diagnostics ++ [d] := rfl

@[simp] theorem report_encounteredError (s : Session) (d : Diagnostic) :
    (s.report d).encounteredError = (s.encounteredError || d.isError) := rfl

@[simp] theorem emitReservation_encounteredError (s : Session) (pos : Position)
    (row : UrlReservation) :
    (s.emitReservation pos row).encounteredError = (s.addReservation pos row).encounteredError :=
  rfl

@[simp] theorem emitReservation_reservations (s : Session) (pos : Position) (row : UrlReservation) :
    (s.emitReservation pos row).reservations = (s.addReservation pos row).reservations := rfl

@[simp] theorem emitReservation_aces (s : Session) (pos : Position) (row : UrlReservation) :
    (s.emitReservation pos row).aces = (s.addReservation pos row).aces := rfl

@[simp] theorem addReservation_encounteredError (s : Session) (pos : Position)
    (row : UrlReservation) :
    (s.addReservation pos row).encounteredError
      = (s.encounteredError || decide (row.id ∈ s.reservations.keys)) := by
  by_cases h : row.id ∈ s.reservations.keys
  · rw [addReservation_of_mem h, report_encounteredError, decide_eq_true h]
    rfl
  · rw [addReservation_of_notMem h, decide_eq_false h, Bool.or_false]

@[simp] theorem addAce_encounteredError (s : Session) (pos : Position) (row : UrlAce) :
    (s.addAce pos row).encounteredError
      = (s.encounteredError || decide (row.id ∈ s.aces.keys)) := by
  by_cases h : row.id ∈ s.aces.keys
  · rw [addAce_of_mem h, report_encounteredError, decide_eq_true h]
    rfl
  · rw [addAce_of_notMem h, decide_eq_false h, Bool.or_false]

theorem filterMap_cons_eq {α β : Type} (f : α → Option β) (a : α) (rest : List α) :
    (a :: rest).filterMap f = (f a).toList ++ rest.filterMap f := by
  cases h : f a <;> simp [h]

/-! ### What a run keeps -/

/--
A property of sessions that reporting keeps, and that depends on the
flag, the diagnostics and the platform only.
-/
structure Stable (P : Session → Prop) : Prop where
  report : ∀ {s : Session} (d : Diagnostic), P s → P (s.report d)
  reservations : ∀ {s : Session} (table : Table UrlReservation.id),
    P s → P { s with reservations := table }
  aces : ∀ {s : Session} (table : Table UrlAce.id), P s → P { s with aces := table }
  references : ∀ {s : Session} (table : Table id), P s → P { s with references := table }
  attributes : ∀ {s : Session} (items : List ExtensionItem),
    P s → P { s with extensionAttributes := items }
  elements : ∀ {s : Session} (items : List ExtensionItem),
    P s → P { s with extensionElements := items }

namespace Stable

variable {P : Session → Prop} {s : Session}

theorem addReservation (hP : Stable P) (h : P s) (pos : Position) (row : UrlReservation) :
    P (s.addReservation pos row) := by
  by_cases hmem : row.id ∈ s.reservations.keys
  · rw [addReservation_of_mem hmem]
    exact hP.report _ h
  · rw [addReservation_of_notMem hmem]
    exact hP.reservations _ h

theorem addAce (hP : Stable P) (h : P s) (pos : Position) (row : UrlAce) :
    P (s.addAce pos row) := by
  by_cases hmem : row.id ∈ s.aces.keys
  · rw [addAce_of_mem hmem]
    exact hP.report _ h
  · rw [addAce_of_notMem hmem]
    exact hP.aces _ h

theorem act (hP : Stable P) (h : P s) (policy : Policy) (action : Action) :
    P (s.act policy action) := by
  -- One case for each operation; the two gated actions add a row or do nothing.
  cases action with
  | always operation =>
    cases operation with
    | report d => exact hP.report d h
    | addReservation pos row => exact hP.addReservation h pos row
    | addAce pos row => exact hP.addAce h pos row
    | addReference reference => exact hP.references _ h
    | extensionAttribute item => exact hP.attributes _ (hP.report _ h)
    | extensionElement item => exact hP.elements _ (hP.report _ h)
  | emitReservation pos row =>
    by_cases hopen : s.gateOpen policy = true
    · rw [Session.act, if_pos hopen]
      exact hP.references _ (hP.references _ (hP.addReservation h pos row))
    · rw [Session.act, if_neg hopen]
      exact h
  | emitAce pos row =>
    by_cases hopen : s.gateOpen policy = true
    · rw [Session.act, if_pos hopen]
      exact hP.addAce h pos row
    · rw [Session.act, if_neg hopen]
      exact h

theorem perform (hP : Stable P) (h : P s) (policy : Policy) (actions : List Action) :
    P (s.perform policy actions) := by
  induction actions generalizing s with
  | nil => exact h
  | cons action rest ih => exact ih (hP.act h policy action)

end Stable

theorem stable_platform (platform : Platform) : Stable fun s => s.platform = platform :=
  ⟨fun _ h => h, fun _ h => h, fun _ h => h, fun _ h => h, fun _ h => h, fun _ h => h⟩

/-- An error is never taken back. -/
theorem stable_encounteredError : Stable fun s => s.encounteredError = true := by
  refine ⟨?_, fun _ h => h, fun _ h => h, fun _ h => h, fun _ h => h, fun _ h => h⟩
  intro s d h
  rw [report_encounteredError, h, Bool.true_or]

/-- The flag of a session says whether there is an error among its diagnostics. -/
def FlagAgrees (s : Session) : Prop :=
  s.encounteredError = s.diagnostics.any (·.isError)

theorem stable_flagAgrees : Stable FlagAgrees := by
  refine ⟨?_, fun _ h => h, fun _ h => h, fun _ h => h, fun _ h => h, fun _ h => h⟩
  intro s d h
  unfold FlagAgrees at *
  rw [report_encounteredError, report_diagnostics, List.any_append, h]
  simp

theorem start_flagAgrees (platform : Platform) : (start platform).FlagAgrees := rfl

/-! ### Runs that end without an error -/

/-- Without an error the gate is open, under either policy. -/
theorem gateOpen_of_noError {s : Session} (policy : Policy) (hs : s.encounteredError = false) :
    s.gateOpen policy = true := by
  cases policy with
  | strict => simp [gateOpen, hs]
  | lenient => rfl

/-- On a session without an error, an action that leaves none goes through. -/
theorem cleanOn_of_act {s : Session} (hs : s.encounteredError = false) {action : Action}
    (h : (s.act .strict action).encounteredError = false) : action.CleanOn s := by
  cases action with
  | always operation =>
    cases operation with
    | report d =>
      refine Action.cleanOn_of_isRemark rfl ?_
      intro d' hd'
      rw [← Option.some.inj hd']
      simpa [act, apply, hs] using h
    | addReservation pos row =>
      refine ⟨by simp [Action.diagnostic?], ?_, by simp [Action.ace?]⟩
      intro row' hrow'
      rw [← Option.some.inj hrow']
      simpa [act, apply, hs] using h
    | addAce pos row =>
      refine ⟨by simp [Action.diagnostic?], by simp [Action.reservation?], ?_⟩
      intro row' hrow'
      rw [← Option.some.inj hrow']
      simpa [act, apply, hs] using h
    | addReference reference =>
      exact ⟨by simp [Action.diagnostic?], by simp [Action.reservation?], by simp [Action.ace?]⟩
    | extensionAttribute item =>
      refine Action.cleanOn_of_isRemark rfl ?_
      intro d hd
      rw [← Option.some.inj hd, item.attributeWarning_isError]
    | extensionElement item =>
      refine Action.cleanOn_of_isRemark rfl ?_
      intro d hd
      rw [← Option.some.inj hd, item.elementWarning_isError]
  | emitReservation pos row =>
    rw [act, if_pos (gateOpen_of_noError .strict hs), emitReservation_encounteredError,
      addReservation_encounteredError, hs] at h
    refine ⟨by simp, ?_, by simp⟩
    intro row' hrow'
    rw [← Option.some.inj hrow']
    simpa using h
  | emitAce pos row =>
    rw [act, if_pos (gateOpen_of_noError .strict hs), addAce_encounteredError, hs] at h
    refine ⟨by simp, by simp, ?_⟩
    intro row' hrow'
    rw [← Option.some.inj hrow']
    simpa using h

/-- What a session holds after an action that goes through. -/
structure Grown (s t : Session) (reservations : List UrlReservation) (aces : List UrlAce) :
    Prop where
  clean : t.encounteredError = false
  reservations : t.reservations.rows = s.reservations.rows ++ reservations
  aces : t.aces.rows = s.aces.rows ++ aces

/-- An action that goes through leaves no error, and stores its row if it has one. -/
theorem act_of_cleanOn {s : Session} (hs : s.encounteredError = false) {action : Action}
    (h : action.CleanOn s) :
    Grown s (s.act .strict action) action.reservation?.toList action.ace?.toList := by
  cases action with
  | always operation =>
    cases operation with
    | report d =>
      have hd : d.isError = false := h.warning d rfl
      exact ⟨by simp [act, apply, hs, hd], (List.append_nil _).symm, (List.append_nil _).symm⟩
    | addReservation pos row =>
      have hrow : row.id ∉ s.reservations.keys := h.reservation row rfl
      rw [act, apply, addReservation_of_notMem hrow]
      exact ⟨hs, rfl, (List.append_nil _).symm⟩
    | addAce pos row =>
      have hrow : row.id ∉ s.aces.keys := h.ace row rfl
      rw [act, apply, addAce_of_notMem hrow]
      exact ⟨hs, (List.append_nil _).symm, rfl⟩
    | addReference reference => exact ⟨hs, (List.append_nil _).symm, (List.append_nil _).symm⟩
    | extensionAttribute item =>
      exact ⟨by simp [act, apply, hs], (List.append_nil _).symm, (List.append_nil _).symm⟩
    | extensionElement item =>
      exact ⟨by simp [act, apply, hs], (List.append_nil _).symm, (List.append_nil _).symm⟩
  | emitReservation pos row =>
    have hrow : row.id ∉ s.reservations.keys := h.reservation row rfl
    rw [act, if_pos (gateOpen_of_noError .strict hs)]
    refine ⟨?_, ?_, ?_⟩
    · rw [emitReservation_encounteredError, addReservation_of_notMem hrow, hs]
    · rw [emitReservation_reservations, addReservation_of_notMem hrow]
      rfl
    · rw [emitReservation_aces, addReservation_of_notMem hrow]
      exact (List.append_nil _).symm
  | emitAce pos row =>
    have hrow : row.id ∉ s.aces.keys := h.ace row rfl
    rw [act, if_pos (gateOpen_of_noError .strict hs), addAce_of_notMem hrow]
    exact ⟨hs, (List.append_nil _).symm, rfl⟩

/--
A run goes through on a session: no action reports an error, and the identifiers of its rows
are distinct from one another and from those in use.
-/
structure CleanRun (s : Session) (actions : List Action) : Prop where
  faultless : Action.Faultless actions
  reservations : (s.reservations.keys ++ (actions.filterMap Action.reservation?).map (·.id)).Nodup
  aces : (s.aces.keys ++ (actions.filterMap Action.ace?).map (·.id)).Nodup

private theorem notMem_of_nodup {ρ κ : Type} {key : ρ → κ} {used later : List κ} {row? : Option ρ}
    (h : (used ++ (row?.toList.map key ++ later)).Nodup) : ∀ row ∈ row?, key row ∉ used := by
  intro row hrow hmem
  have hlater : key row ∈ row?.toList.map key ++ later :=
    List.mem_append_left _ (List.mem_map_of_mem (Option.mem_toList.mpr hrow))
  exact (List.nodup_append.mp h).2.2 (key row) hmem (key row) hlater rfl

private theorem nodup_of_notMem {ρ κ : Type} {key : ρ → κ} {used : List κ} {row? : Option ρ}
    (hused : used.Nodup) (h : ∀ row ∈ row?, key row ∉ used) :
    (used ++ row?.toList.map key).Nodup := by
  refine List.nodup_append.mpr ⟨hused, ?_, ?_⟩
  · cases row? <;> simp
  · intro k hk k' hk' hsame
    obtain ⟨row, hrow, hkey⟩ := List.mem_map.mp hk'
    rw [hsame, ← hkey] at hk
    exact h row (Option.mem_toList.mp hrow) hk

namespace Grown

variable {s t : Session} {reservations : List UrlReservation} {aces : List UrlAce}

theorem reservationKeys (h : Grown s t reservations aces) :
    t.reservations.keys = s.reservations.keys ++ reservations.map (·.id) := by
  rw [Table.keys, h.reservations, List.map_append]
  rfl

theorem aceKeys (h : Grown s t reservations aces) :
    t.aces.keys = s.aces.keys ++ aces.map (·.id) := by
  rw [Table.keys, h.aces, List.map_append]
  rfl

end Grown

/-- A run goes through if its first action does and the others do afterwards. -/
theorem cleanRun_cons {s : Session} (hs : s.encounteredError = false) {action : Action}
    {rest : List Action} :
    s.CleanRun (action :: rest) ↔ action.CleanOn s ∧ (s.act .strict action).CleanRun rest := by
  refine ⟨?_, ?_⟩
  · intro h
    obtain ⟨hfaultless, hreservations, haces⟩ := h
    rw [Action.Faultless, filterMap_cons_eq] at hfaultless
    rw [filterMap_cons_eq, List.map_append] at hreservations haces
    have hclean : action.CleanOn s :=
      ⟨fun d hd => hfaultless d (List.mem_append_left _ (by simpa using hd)),
        notMem_of_nodup hreservations, notMem_of_nodup haces⟩
    have hgrown := act_of_cleanOn hs hclean
    refine ⟨hclean, fun d hd => hfaultless d (List.mem_append_right _ hd), ?_, ?_⟩
    · rwa [hgrown.reservationKeys, List.append_assoc]
    · rwa [hgrown.aceKeys, List.append_assoc]
  · intro h
    obtain ⟨hclean, hfaultless, hreservations, haces⟩ := h
    have hgrown := act_of_cleanOn hs hclean
    rw [hgrown.reservationKeys, List.append_assoc] at hreservations
    rw [hgrown.aceKeys, List.append_assoc] at haces
    refine ⟨?_, ?_, ?_⟩
    · intro d hd
      rw [filterMap_cons_eq] at hd
      rcases List.mem_append.mp hd with hd | hd
      · exact hclean.warning d (by simpa using hd)
      · exact hfaultless d hd
    · rwa [filterMap_cons_eq, List.map_append]
    · rwa [filterMap_cons_eq, List.map_append]

/-- **A run ends without an error exactly if it goes through.** -/
theorem perform_encounteredError_iff {s : Session} (hs : s.encounteredError = false)
    (hreservations : s.reservations.keys.Nodup) (haces : s.aces.keys.Nodup)
    (actions : List Action) :
    (s.perform .strict actions).encounteredError = false ↔ s.CleanRun actions := by
  induction actions generalizing s with
  | nil =>
    refine ⟨fun _ => ⟨by simp, ?_, ?_⟩, fun _ => hs⟩
    · simpa using hreservations
    · simpa using haces
  | cons action rest ih =>
    rw [perform_cons, cleanRun_cons hs]
    by_cases hclean : action.CleanOn s
    · have hgrown := act_of_cleanOn hs hclean
      rw [ih hgrown.clean ?_ ?_]
      · exact ⟨fun h => ⟨hclean, h⟩, fun h => h.2⟩
      · rw [hgrown.reservationKeys]
        exact nodup_of_notMem hreservations hclean.reservation
      · rw [hgrown.aceKeys]
        exact nodup_of_notMem haces hclean.ace
    · have herror : (s.act .strict action).encounteredError = true := by
        by_contra hcon
        exact hclean (cleanOn_of_act hs (by simpa using hcon))
      rw [stable_encounteredError.perform herror]
      exact ⟨fun h => Bool.noConfusion h, fun h => absurd h.1 hclean⟩

/-- **A run that goes through stores every row it offers, in order.** -/
theorem perform_of_cleanRun {s : Session} (hs : s.encounteredError = false) {actions : List Action}
    (h : s.CleanRun actions) :
    Grown s (s.perform .strict actions) (actions.filterMap Action.reservation?)
      (actions.filterMap Action.ace?) := by
  induction actions generalizing s with
  | nil => exact ⟨hs, (List.append_nil _).symm, (List.append_nil _).symm⟩
  | cons action rest ih =>
    obtain ⟨hclean, hrest⟩ := (cleanRun_cons hs).mp h
    have hfirst := act_of_cleanOn hs hclean
    have hlater := ih hfirst.clean hrest
    refine ⟨hlater.clean, ?_, ?_⟩
    · rw [perform_cons, hlater.reservations, hfirst.reservations, filterMap_cons_eq,
        List.append_assoc]
    · rw [perform_cons, hlater.aces, hfirst.aces, filterMap_cons_eq, List.append_assoc]

theorem start_cleanRun_iff (platform : Platform) (actions : List Action) :
    (start platform).CleanRun actions ↔ Action.Faultless actions ∧
      ((actions.filterMap Action.reservation?).map (·.id)).Nodup ∧
      ((actions.filterMap Action.ace?).map (·.id)).Nodup :=
  ⟨fun h => ⟨h.faultless, h.reservations, h.aces⟩, fun h => ⟨h.1, h.2.1, h.2.2⟩⟩

theorem start_perform_encounteredError_iff (platform : Platform) (actions : List Action) :
    ((start platform).perform .strict actions).encounteredError = false ↔
      (start platform).CleanRun actions :=
  perform_encounteredError_iff (s := start platform) rfl List.nodup_nil List.nodup_nil actions

end Session

end UrlReservations
