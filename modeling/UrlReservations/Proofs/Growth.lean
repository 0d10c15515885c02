/-
A session only grows, and an error makes it stop.

`Extends` says of every list in a session at once that what was there is still there, in the
same place.  Every action keeps it, so every run does, under either policy.

The two policies differ in one thing.  As long as there is no error they do the same, action by
action, so a run that ends without an error under one of them is the same run under the other
(`perform_eq_of_noError`).  Once there is an error, a strict session takes no more rows and
makes no more references, whatever its readers ask for (`perform_records_of_error`).  What lies
between the two is a single action, the one that reports the first error (`exists_first_error`),
and that action stores nothing (`act_of_first_error`).
-/
import UrlReservations.Proofs.References

namespace UrlReservations

attribute [ext] Session Table

/-- No error has been reported. -/
def Session.NoError (s : Session) : Prop := ∀ d ∈ s.diagnostics, d.isError = false

namespace Session

variable {s t u : Session} {policy : Policy}

theorem noError_iff (h : s.FlagAgrees) : s.NoError ↔ s.encounteredError = false := by
  rw [NoError, h, List.any_eq_false]
  simp only [Bool.not_eq_true]

theorem start_perform_noError_iff (platform : Platform) (policy : Policy) (actions : List Action) :
    ((start platform).perform policy actions).NoError ↔
      ((start platform).perform policy actions).encounteredError = false :=
  noError_iff (stable_flagAgrees.perform (start_flagAgrees platform) policy actions)

/-! ### Everything is kept -/

/-- Every list a session holds is still there in another, with more behind it. -/
structure Extends (s t : Session) : Prop where
  diagnostics : s.diagnostics <+: t.diagnostics
  reservations : s.reservations.rows <+: t.reservations.rows
  aces : s.aces.rows <+: t.aces.rows
  references : s.references.rows <+: t.references.rows
  extensionAttributes : s.extensionAttributes <+: t.extensionAttributes
  extensionElements : s.extensionElements <+: t.extensionElements

namespace Extends

theorem refl (s : Session) : Extends s s :=
  ⟨List.prefix_rfl, List.prefix_rfl, List.prefix_rfl, List.prefix_rfl, List.prefix_rfl,
    List.prefix_rfl⟩

theorem trans (h : Extends s t) (h' : Extends t u) : Extends s u where
  diagnostics := h.diagnostics.trans h'.diagnostics
  reservations := h.reservations.trans h'.reservations
  aces := h.aces.trans h'.aces
  references := h.references.trans h'.references
  extensionAttributes := h.extensionAttributes.trans h'.extensionAttributes
  extensionElements := h.extensionElements.trans h'.extensionElements

end Extends

theorem report_extends (s : Session) (d : Diagnostic) : Extends s (s.report d) := by
  have hkept := Extends.refl s
  exact { hkept with diagnostics := List.prefix_append _ _ }

theorem addReservation_extends (s : Session) (pos : Position) (row : UrlReservation) :
    Extends s (s.addReservation pos row) := by
  by_cases h : row.id ∈ s.reservations.keys
  · rw [addReservation_of_mem h]
    exact report_extends s _
  · rw [addReservation_of_notMem h]
    have hkept := Extends.refl s
    exact { hkept with reservations := List.prefix_append _ _ }

theorem addAce_extends (s : Session) (pos : Position) (row : UrlAce) :
    Extends s (s.addAce pos row) := by
  by_cases h : row.id ∈ s.aces.keys
  · rw [addAce_of_mem h]
    exact report_extends s _
  · rw [addAce_of_notMem h]
    have hkept := Extends.refl s
    exact { hkept with aces := List.prefix_append _ _ }

theorem addReference_extends (s : Session) (reference : Reference) :
    Extends s (s.addReference reference) := by
  have hkept := Extends.refl s
  refine { hkept with references := ?_ }
  by_cases h : reference ∈ s.references.rows
  · simp [addReference, Table.insertNew, Table.insert?, Table.keys, h]
  · simp [addReference, Table.insertNew, Table.insert?, Table.keys, h]

/-- Every action keeps everything. -/
theorem act_extends (policy : Policy) (s : Session) (action : Action) :
    Extends s (s.act policy action) := by
  cases action with
  | always operation =>
    cases operation with
    | report d => exact report_extends s d
    | addReservation pos row => exact addReservation_extends s pos row
    | addAce pos row => exact addAce_extends s pos row
    | addReference reference => exact addReference_extends s reference
    | extensionAttribute item =>
      have hkept := report_extends s item.attributeWarning
      exact { hkept with extensionAttributes := List.prefix_append _ _ }
    | extensionElement item =>
      have hkept := report_extends s item.elementWarning
      exact { hkept with extensionElements := List.prefix_append _ _ }
  | emitReservation pos row =>
    by_cases hopen : s.gateOpen policy = true
    · rw [act, if_pos hopen]
      exact ((addReservation_extends s pos row).trans (addReference_extends _ _)).trans
        (addReference_extends _ _)
    · rw [act, if_neg hopen]
      exact Extends.refl s
  | emitAce pos row =>
    by_cases hopen : s.gateOpen policy = true
    · rw [act, if_pos hopen]
      exact addAce_extends s pos row
    · rw [act, if_neg hopen]
      exact Extends.refl s

/-- **A run only adds**, whatever it is made of and whatever the policy is. -/
theorem perform_extends (policy : Policy) (s : Session) (actions : List Action) :
    Extends s (s.perform policy actions) := by
  induction actions generalizing s with
  | nil => exact Extends.refl s
  | cons action rest ih => exact (act_extends policy s action).trans (ih (s.act policy action))

/-- A session that ends up without an error had none before. -/
theorem noError_before {actions : List Action}
    (h : (s.perform policy actions).encounteredError = false) : s.encounteredError = false := by
  by_contra hcon
  rw [Bool.not_eq_false] at hcon
  rw [stable_encounteredError.perform hcon policy actions] at h
  exact Bool.noConfusion h

/-! ### The two policies, until there is an error -/

/-- On a session without an error, both policies carry an action out alike. -/
theorem act_eq_of_noError (hs : s.encounteredError = false) (policy policy' : Policy)
    (action : Action) : s.act policy action = s.act policy' action := by
  have hopen := gateOpen_of_noError policy hs
  have hopen' := gateOpen_of_noError policy' hs
  cases action with
  | always operation => rfl
  | emitReservation pos row => rw [act, act, if_pos hopen, if_pos hopen']
  | emitAce pos row => rw [act, act, if_pos hopen, if_pos hopen']

/-- **A run that ends without an error under one policy is the same run under the other.** -/
theorem perform_eq_of_noError {actions : List Action} (policy policy' : Policy)
    (h : (s.perform policy actions).encounteredError = false) :
    s.perform policy actions = s.perform policy' actions := by
  induction actions generalizing s with
  | nil => rfl
  | cons action rest ih =>
    have hs := noError_before h
    rw [perform_cons, perform_cons, ← act_eq_of_noError hs policy policy' action]
    exact ih h

/-! ### The first error -/

/--
A run with an error has a first one: everything before it goes
without, and a single action reports it.
-/
theorem exists_first_error {actions : List Action} (hs : s.encounteredError = false)
    (h : (s.perform policy actions).encounteredError = true) :
    ∃ before action after, actions = before ++ action :: after ∧
      (s.perform policy before).encounteredError = false ∧
      ((s.perform policy before).act policy action).encounteredError = true := by
  induction actions generalizing s with
  | nil =>
    rw [perform_nil, hs] at h
    exact Bool.noConfusion h
  | cons action rest ih =>
    by_cases hfirst : (s.act policy action).encounteredError = true
    · exact ⟨[], action, rest, rfl, hs, hfirst⟩
    · rw [Bool.not_eq_true] at hfirst
      obtain ⟨before, later, after, rfl, hbefore, hlater⟩ := ih hfirst h
      exact ⟨action :: before, later, after, rfl, hbefore, hlater⟩

/-- The action that reports the first error reports that error only, and stores nothing. -/
theorem act_of_first_error {action : Action} (hs : s.encounteredError = false)
    (h : (s.act policy action).encounteredError = true) :
    ∃ d, d.isError = true ∧ (s.act policy action).diagnostics = s.diagnostics ++ [d] ∧
      (s.act policy action).reservations = s.reservations ∧
        (s.act policy action).aces = s.aces := by
  have hopen := gateOpen_of_noError policy hs
  cases action with
  | always operation =>
    cases operation with
    | report d =>
      refine ⟨d, ?_, rfl, rfl, rfl⟩
      simpa [act, apply, hs] using h
    | addReservation pos row =>
      have hmem : row.id ∈ s.reservations.keys := by simpa [act, apply, hs] using h
      rw [act, apply, addReservation_of_mem hmem]
      exact ⟨_, rfl, rfl, rfl, rfl⟩
    | addAce pos row =>
      have hmem : row.id ∈ s.aces.keys := by simpa [act, apply, hs] using h
      rw [act, apply, addAce_of_mem hmem]
      exact ⟨_, rfl, rfl, rfl, rfl⟩
    | addReference reference => simp [act, apply, addReference, hs] at h
    | extensionAttribute item => simp [act, apply, hs] at h
    | extensionElement item => simp [act, apply, hs] at h
  | emitReservation pos row =>
    rw [act, if_pos hopen] at h ⊢
    have hmem : row.id ∈ s.reservations.keys := by simpa [hs] using h
    have hrefused := addReservation_of_mem hmem pos
    refine ⟨⟨pos, .duplicateSymbol Vocabulary.urlReservationTable row.id.text⟩, rfl, ?_, ?_, ?_⟩
    · show (s.addReservation pos row).diagnostics = _
      rw [hrefused, report_diagnostics]
    · rw [emitReservation_reservations, hrefused]
      rfl
    · rw [emitReservation_aces, hrefused]
      rfl
  | emitAce pos row =>
    rw [act, if_pos hopen] at h ⊢
    have hmem : row.id ∈ s.aces.keys := by simpa [hs] using h
    rw [addAce_of_mem hmem]
    exact ⟨_, rfl, rfl, rfl, rfl⟩

/-! ### After the first error -/

/-- Once there is an error, nothing a reader asks for adds a row or a reference. -/
theorem act_records_of_error {action : Action} (hs : s.encounteredError = true)
    (haction : action.isOfReader = true) : (s.act .strict action).records = s.records := by
  have hclosed : ¬ s.gateOpen .strict = true := by simp [gateOpen, hs]
  cases action with
  | always operation =>
    cases operation with
    | report d => rfl
    | extensionAttribute item => rfl
    | extensionElement item => rfl
    | addReservation pos row => simp [Action.isOfReader, Action.isRemark] at haction
    | addAce pos row => simp [Action.isOfReader, Action.isRemark] at haction
    | addReference reference => simp [Action.isOfReader, Action.isRemark] at haction
  | emitReservation pos row => rw [act, if_neg hclosed]
  | emitAce pos row => rw [act, if_neg hclosed]

/-- **Once there is an error, a strict run of readers adds no row and no reference.** -/
theorem perform_records_of_error {actions : List Action} (hs : s.encounteredError = true)
    (hactions : ∀ action ∈ actions, action.isOfReader = true) :
    (s.perform .strict actions).records = s.records := by
  induction actions generalizing s with
  | nil => rfl
  | cons action rest ih =>
    rw [List.forall_mem_cons] at hactions
    have hfirst := stable_encounteredError.act hs .strict action
    rw [perform_cons, ih hfirst hactions.2, act_records_of_error hs hactions.1]

end Session

end UrlReservations
