/-
What a compilation refers to.

References are made again with every reservation, so a list of them says little by itself.
What keeps it short is an invariant: as long as a session is driven by readers only, it refers
to the two custom actions of its platform from its first reservation on, and to nothing
before.  Readers ask for nothing but remarks and rows (`Action.OfReader`), and under either
policy a remark or a row keeps the invariant, whether the row is stored, refused or held
back.
-/
import UrlReservations.Proofs.Acceptance
import UrlReservations.Proofs.Operations
import UrlReservations.Proofs.Reporting

namespace UrlReservations

open Xml (Element Place Document)

/-! ### What readers ask for -/

/-- Whether an action is one a reader asks for: a remark, or a row the gate may hold back. -/
def Action.isOfReader : Action → Bool
  | .emitReservation .. => true
  | .emitAce .. => true
  | action => action.isRemark

/--
What a reader asks for: to report something other than an identifier in use, to record markup of
other extensions, or to emit a row.
-/
inductive Action.OfReader : Action → Prop where
  | report {d : Diagnostic} (h : d.isDuplicate = false) : OfReader (.report d)
  | extensionAttribute (item : ExtensionItem) : OfReader (.always (.extensionAttribute item))
  | extensionElement (item : ExtensionItem) : OfReader (.always (.extensionElement item))
  | emitReservation (pos : Position) (row : UrlReservation) : OfReader (.emitReservation pos row)
  | emitAce (pos : Position) (row : UrlAce) : OfReader (.emitAce pos row)

theorem Action.OfReader.isOfReader {action : Action} (h : action.OfReader) :
    action.isOfReader = true := by
  cases h <;> rfl

theorem Diagnostic.not_isDuplicate_of_isAboutValue {d : Diagnostic}
    (h : d.message.isAboutValue = true) : d.isDuplicate = false := by
  unfold isDuplicate
  split
  · rename_i hmessage
    rw [hmessage] at h
    exact absurd h Bool.false_ne_true
  · rfl

theorem Xml.Element.ofReader_of_mem_visitAttributes {α : Type} [AttributeSet α] [DecidableEq α]
    (element : Element) {faults : α → AttributeValue → List Diagnostic}
    (hfaults : ∀ kind v, ∀ d ∈ faults kind v, d.message.isAboutValue = true) :
    ∀ action ∈ element.visitAttributes fun kind v => (faults kind v).map .report,
      action.OfReader := by
  intro action haction
  obtain ⟨finding, -, haction⟩ := List.mem_flatMap.mp haction
  cases finding with
  | foreign a =>
    rw [List.mem_singleton.mp haction]
    exact .extensionAttribute _
  | unknown a =>
    rw [List.mem_singleton.mp haction]
    exact .report rfl
  | repeated kind a =>
    rw [List.mem_singleton.mp haction]
    exact .report rfl
  | first kind a =>
    obtain ⟨d, hd, rfl⟩ := List.mem_map.mp haction
    exact .report (Diagnostic.not_isDuplicate_of_isAboutValue (hfaults _ _ d hd))

namespace UrlAce

theorem ofReader_of_mem_childActions (ace child : Element) :
    ∀ action ∈ childActions ace child, action.OfReader := by
  intro action haction
  unfold childActions at haction
  split at haction
  · rw [List.mem_singleton.mp haction]
    exact .report rfl
  · rw [List.mem_singleton.mp haction]
    exact .extensionElement _

theorem ofReader_of_mem_actions (ace : Element) (reservationId : Identifier)
    (ambient? : Option String) :
    ∀ action ∈ actions ace reservationId ambient?, action.OfReader := by
  intro action haction
  simp only [actions, Reading.allActions, read, List.mem_append] at haction
  rcases haction with ((haction | haction) | haction) | haction
  · exact ace.ofReader_of_mem_visitAttributes AceAttribute.isAboutValue_of_mem_faults action haction
  · obtain ⟨child, -, haction⟩ := List.mem_flatMap.mp haction
    exact ofReader_of_mem_childActions ace child action haction
  · obtain ⟨d, hd, rfl⟩ := List.mem_map.mp haction
    rw [closingFaults, List.mem_ite_nil_right, List.mem_singleton] at hd
    rw [hd.2]
    exact .report rfl
  · obtain ⟨row, -, rfl⟩ := List.mem_map.mp haction
    exact .emitAce ace.pos row

end UrlAce

namespace UrlReservation

theorem ofReader_of_mem_childActions (element child : Element) (owner : Owner) :
    ∀ action ∈ childActions element owner child, action.OfReader := by
  intro action haction
  unfold childActions at haction
  split at haction
  · rw [List.mem_singleton.mp haction]
    exact .extensionElement _
  · split at haction
    · rw [List.mem_singleton.mp haction]
      exact .report rfl
    · split at haction
      · rw [List.mem_singleton.mp haction]
        exact .report rfl
      · exact UrlAce.ofReader_of_mem_actions _ _ _ action haction

theorem ofReader_of_mem_actions (element : Element) (owner : Owner) :
    ∀ action ∈ actions element owner, action.OfReader := by
  intro action haction
  simp only [actions, Reading.allActions, read, List.mem_append] at haction
  rcases haction with ((haction | haction) | haction) | haction
  · exact element.ofReader_of_mem_visitAttributes ReservationAttribute.isAboutValue_of_mem_faults
      action haction
  · obtain ⟨child, -, haction⟩ := List.mem_flatMap.mp haction
    exact ofReader_of_mem_childActions element child owner action haction
  · obtain ⟨d, hd, rfl⟩ := List.mem_map.mp haction
    rw [closingFaults, List.mem_append, List.mem_ite_nil_right, List.mem_ite_nil_right,
      List.mem_singleton, List.mem_singleton] at hd
    rcases hd with ⟨-, rfl⟩ | ⟨-, rfl⟩ <;> exact .report rfl
  · obtain ⟨row, -, rfl⟩ := List.mem_map.mp haction
    exact .emitReservation element.pos row

end UrlReservation

theorem Xml.Document.isOfReader_of_mem_actions (doc : Document) :
    ∀ action ∈ doc.actions, action.isOfReader = true := by
  intro action haction
  obtain ⟨entry, hentry, haction⟩ := List.mem_flatMap.mp haction
  by_cases hplaced : entry.WellPlaced
  · obtain ⟨owner, -, hactions⟩ :=
      Place.actions_of_wellPlaced (Document.isEntry_of_mem_entries hentry) hplaced
    rw [hactions] at haction
    exact (UrlReservation.ofReader_of_mem_actions entry.element owner action haction).isOfReader
  · obtain ⟨pos, message, -, hactions⟩ :=
      Place.actions_of_not_wellPlaced (Document.isEntry_of_mem_entries hentry) hplaced
    rw [hactions] at haction
    rw [List.mem_singleton.mp haction]
    rfl

/-! ### References follow reservations -/

namespace Session

/--
A session refers to the custom actions of its platform if it has a
reservation, and to nothing otherwise.
-/
def ReferencesFollow (s : Session) : Prop :=
  s.references.rows = if s.reservations.rows.isEmpty then [] else s.platform.references

theorem install_ne_uninstall (platform : Platform) :
    platform.scheduledActions.install ≠ platform.scheduledActions.uninstall := by
  cases platform <;> decide

/-- Referring to both custom actions of the platform once more changes nothing. -/
theorem addReferences_eq {s : Session}
    (h : s.references.rows = [] ∨ s.references.rows = s.platform.references) :
    ((s.addReference
        ⟨Vocabulary.customActionTable, s.platform.scheduledActions.install⟩).addReference
          ⟨Vocabulary.customActionTable, s.platform.scheduledActions.uninstall⟩).references.rows
      = s.platform.references := by
  have hne := install_ne_uninstall s.platform
  rcases h with h | h <;>
    simp [addReference, Table.insertNew, Table.insert?, Table.keys, h, Platform.references,
      Vocabulary.customActionTable, hne.symm]

theorem addReservation_reservations_ne_nil (s : Session) (pos : Position) (row : UrlReservation) :
    (s.addReservation pos row).reservations.rows ≠ [] := by
  by_cases hmem : row.id ∈ s.reservations.keys
  · rw [addReservation_of_mem hmem]
    obtain ⟨other, hother, -⟩ := List.mem_map.mp hmem
    exact List.ne_nil_of_mem hother
  · rw [addReservation_of_notMem hmem]
    simp

/-- What readers ask for keeps the references in step with the reservations. -/
theorem act_referencesFollow {s : Session} (h : s.ReferencesFollow) (policy : Policy)
    {action : Action} (haction : action.isOfReader = true) :
    (s.act policy action).ReferencesFollow := by
  cases action with
  | always operation =>
    cases operation with
    | report d => exact h
    | extensionAttribute item => exact h
    | extensionElement item => exact h
    | addReservation pos row => simp [Action.isOfReader, Action.isRemark] at haction
    | addAce pos row => simp [Action.isOfReader, Action.isRemark] at haction
    | addReference reference => simp [Action.isOfReader, Action.isRemark] at haction
  | emitReservation pos row =>
    by_cases hopen : s.gateOpen policy = true
    · rw [act, if_pos hopen]
      have hreferences := s.addReservation_references pos row
      have hplatform := (stable_platform s.platform).addReservation (s := s) rfl pos row
      have hnil := s.addReservation_reservations_ne_nil pos row
      have hbefore : (s.addReservation pos row).references.rows = [] ∨
          (s.addReservation pos row).references.rows
            = (s.addReservation pos row).platform.references := by
        rw [hreferences, hplatform, h]
        split
        · exact .inl rfl
        · exact .inr rfl
      have hafter := addReferences_eq hbefore
      rw [hplatform] at hafter
      unfold ReferencesFollow
      rw [emitReservation_reservations, if_neg (by simpa using hnil)]
      exact hafter.trans (congrArg Platform.references hplatform.symm)
    · rw [act, if_neg hopen]
      exact h
  | emitAce pos row =>
    by_cases hopen : s.gateOpen policy = true
    · rw [act, if_pos hopen]
      obtain ⟨hreferences, hreservations⟩ := s.addAce_references pos row
      unfold ReferencesFollow
      rw [hreferences, hreservations, (stable_platform s.platform).addAce (s := s) rfl]
      exact h
    · rw [act, if_neg hopen]
      exact h

theorem perform_referencesFollow {s : Session} (h : s.ReferencesFollow) (policy : Policy)
    {actions : List Action} (hactions : ∀ action ∈ actions, action.isOfReader = true) :
    (s.perform policy actions).ReferencesFollow := by
  induction actions generalizing s with
  | nil => exact h
  | cons action rest ih =>
    rw [List.forall_mem_cons] at hactions
    exact ih (act_referencesFollow h policy hactions.1) hactions.2

theorem start_referencesFollow (platform : Platform) : (start platform).ReferencesFollow := rfl

end Session

/--
A compilation refers to the custom actions of its platform if it
stored a reservation, and to nothing otherwise.
-/
theorem compile_references (doc : Document) (platform : Platform) :
    (compile doc platform).references.rows
      = if (compile doc platform).reservations.rows.isEmpty then [] else platform.references := by
  have hfollow : (compile doc platform).ReferencesFollow :=
    Session.perform_referencesFollow (Session.start_referencesFollow platform)
      .strict doc.isOfReader_of_mem_actions
  have hplatform : (compile doc platform).platform = platform :=
    (Session.stable_platform platform).perform rfl .strict doc.actions
  rw [Session.ReferencesFollow, hplatform] at hfollow
  exact hfollow

end UrlReservations
