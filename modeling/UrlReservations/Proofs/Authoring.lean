/-
Visiting attributes, seen from the attributes.

`findings` walks the attributes of a tag with the names it has met so far.  What such a walk
makes of a tag is put here in terms of the tag alone: it finds no fault exactly if the
attributes have distinct known names and legal values, and the value it hands out for a name
is that of the first attribute of the name.  Both are inductions over the attributes, for
every set of names met before; `LawfulAttributeSet` is what ties an attribute met again to a
name met again.
-/
import UrlReservations.Proofs.Grammar
import UrlReservations.Proofs.Run

namespace UrlReservations

open Xml (Attribute Element)

variable {α : Type} [AttributeSet α]

/--
A finding has nothing wrong with it: the attribute is foreign, or the
first of its name and acceptable.
-/
def Finding.Faultless (acceptable : α → Attribute → Prop) : Finding α → Prop
  | .foreign _ => True
  | .unknown _ => False
  | .repeated _ _ => False
  | .first kind a => acceptable kind a

/-- An attribute of its own name, not met before, is acceptable under that name. -/
private def Acceptable (acceptable : α → Attribute → Prop) (seen : List α) (a : Attribute) : Prop :=
  ∃ kind, AttributeSet.ofName? a.name = some kind ∧ kind ∉ seen ∧ acceptable kind a

private theorem acceptable_cons [LawfulAttributeSet α] {acceptable : α → Attribute → Prop}
    {seen : List α} {a b : Attribute} {kind : α} (hkind : AttributeSet.ofName? a.name = some kind) :
    Acceptable acceptable (kind :: seen) b ↔ b.name ≠ a.name ∧ Acceptable acceptable seen b := by
  refine ⟨?_, ?_⟩
  · intro h
    obtain ⟨other, hother, hseen, hb⟩ := h
    refine ⟨?_, other, hother, fun h => hseen (List.mem_cons_of_mem _ h), hb⟩
    intro hname
    rw [hname, hkind, Option.some.injEq] at hother
    exact hseen (by simp [hother])
  · intro h
    obtain ⟨hname, other, hother, hseen, hb⟩ := h
    refine ⟨other, hother, ?_, hb⟩
    intro hmem
    rcases List.mem_cons.mp hmem with rfl | hmem
    · rw [LawfulAttributeSet.ofName?_eq_some] at hkind hother
      exact hname (hother.symm.trans hkind)
    · exact hseen hmem

namespace Finding

theorem actions_faultless_iff (element : Element) (faults : α → AttributeValue → List Diagnostic)
    (finding : Finding α) :
    Action.Faultless (finding.actions element fun kind v => (faults kind v).map .report) ↔
      finding.Faultless fun kind a => ∀ d ∈ faults kind (Finding.value element kind a),
        d.isError = false := by
  cases finding with
  | foreign a => simp [actions, Faultless]
  | unknown a =>
    simp [actions, Faultless, Action.faultless_report, Message.isError, Message.severity]
  | repeated kind a =>
    simp [actions, Faultless, Action.faultless_report, Message.isError, Message.severity]
  | first kind a => exact Action.faultless_reports _

end Finding

variable [DecidableEq α]

/--
The attributes met after some names are faultless exactly if their own names are distinct and
each is known, not among those names, and acceptable.
-/
theorem findings_faultless_iff [LawfulAttributeSet α] (acceptable : α → Attribute → Prop)
    (attributes : List Attribute) (seen : List α) :
    (∀ finding ∈ findings seen attributes, finding.Faultless acceptable) ↔
      ((attributes.filter (·.isOwn)).map (·.name)).Nodup ∧
        ∀ a ∈ attributes.filter (·.isOwn), ∃ kind,
          AttributeSet.ofName? a.name = some kind ∧ kind ∉ seen ∧ acceptable kind a := by
  change _ ↔ _ ∧ ∀ a ∈ attributes.filter (·.isOwn), Acceptable acceptable seen a
  induction attributes generalizing seen with
  | nil => simp [findings]
  | cons a rest ih =>
    by_cases hown : a.isOwn = true
    · rw [findings, if_pos hown, List.filter_cons_of_pos (by simpa using hown), List.map_cons,
        List.nodup_cons, List.forall_mem_cons]
      cases hkind : AttributeSet.ofName? (α := α) a.name with
      | none => simp [Finding.Faultless, Acceptable, hkind]
      | some kind =>
        by_cases hseen : kind ∈ seen
        · simp [Finding.Faultless, Acceptable, hkind, hseen]
        · -- the name is new, so the rest is judged with it among those met before
          have hhead : Acceptable acceptable seen a ↔ acceptable kind a := by
            simp [Acceptable, hkind, hseen]
          simp only [hseen, if_false]
          rw [List.forall_mem_cons, ih (kind :: seen), hhead]
          simp only [acceptable_cons hkind, Finding.Faultless]
          refine ⟨?_, ?_⟩
          · intro h
            obtain ⟨ha, hdistinct, hrest⟩ := h
            refine ⟨⟨?_, hdistinct⟩, ha, fun b hb => (hrest b hb).2⟩
            intro hmem
            obtain ⟨b, hb, hname⟩ := List.mem_map.mp hmem
            exact (hrest b hb).1 hname
          · intro h
            obtain ⟨⟨hnew, hdistinct⟩, ha, hrest⟩ := h
            refine ⟨ha, hdistinct, fun b hb => ⟨?_, hrest b hb⟩⟩
            intro hname
            exact hnew (List.mem_map.mpr ⟨b, hb, hname⟩)
    · rw [findings, if_neg hown, List.filter_cons_of_neg (by simpa using hown),
        List.forall_mem_cons, ih seen]
      simp [Finding.Faultless]

theorem find?_findings [LawfulAttributeSet α] (element : Element) (kind : α)
    (attributes : List Attribute) (seen : List α) (hseen : kind ∉ seen) :
    ((findings seen attributes).filterMap (Finding.first? element)).find? (·.1 = kind)
      = ((attributes.filter (·.isOwn)).find? (·.name = AttributeSet.name kind)).map
          fun a => (kind, Finding.value element kind a) := by
  induction attributes generalizing seen with
  | nil => simp [findings]
  | cons a rest ih =>
    by_cases hown : a.isOwn = true
    · rw [findings, if_pos hown, List.filter_cons_of_pos (by simpa using hown)]
      cases hother : AttributeSet.ofName? (α := α) a.name with
      | none =>
        have hname : a.name ≠ AttributeSet.name kind := by
          intro hname
          rw [LawfulAttributeSet.ofName?_eq_some.mpr hname.symm] at hother
          simp at hother
        rw [List.find?_cons_of_neg (by simpa using hname)]
        simpa [Finding.first?] using ih seen hseen
      | some other =>
        have hname : AttributeSet.name other = a.name :=
          LawfulAttributeSet.ofName?_eq_some.mp hother
        by_cases heq : other = kind
        · subst heq
          rw [List.find?_cons_of_pos (by simpa using hname.symm)]
          simp [hseen, Finding.first?]
        · have hne : a.name ≠ AttributeSet.name kind := by
            intro hc
            rw [LawfulAttributeSet.ofName?_eq_some.mpr hc.symm, Option.some.injEq] at hother
            exact heq hother.symm
          rw [List.find?_cons_of_neg (by simpa using hne)]
          by_cases hmet : other ∈ seen
          · simpa [hmet, Finding.first?] using ih seen hseen
          · have hseen' : kind ∉ other :: seen := by
              intro hmem
              rcases List.mem_cons.mp hmem with hc | hc
              · exact heq hc.symm
              · exact hseen hc
            simpa [hmet, Finding.first?, heq] using ih (other :: seen) hseen'
    · rw [findings, if_neg hown, List.filter_cons_of_neg (by simpa using hown)]
      simpa [Finding.first?] using ih seen hseen

/-! ### Visiting the attributes of an element -/

namespace Xml.Element

/-- The value authored for an attribute is that of the first of its name, unless it is empty. -/
theorem authored?_eq [LawfulAttributeSet α] (element : Element) (kind : α) :
    element.authored? kind = (element.own? (AttributeSet.name kind)).filter (· ≠ "") := by
  rw [authored?, visited, attributeFindings,
    find?_findings element kind element.attributes [] List.not_mem_nil, own?, ownAttributes]
  cases (element.attributes.filter (·.isOwn)).find? (·.name = AttributeSet.name kind) with
  | none => rfl
  | some a =>
    by_cases hempty : a.value = "" <;>
      simp [Finding.value, AttributeValue.text?, Option.filter_some, hempty]

/-- In a tag without empty values, it is the value of the first attribute of its name. -/
theorem authored?_eq_own? [LawfulAttributeSet α] {element : Element}
    (hnonempty : ∀ a ∈ element.ownAttributes, a.value ≠ "") (kind : α) :
    element.authored? kind = element.own? (AttributeSet.name kind) := by
  rw [authored?_eq]
  cases hfound : element.own? (AttributeSet.name kind) with
  | none => rfl
  | some value =>
    obtain ⟨a, ha, rfl⟩ := Option.map_eq_some_iff.mp hfound
    have hvalue := hnonempty a (List.mem_of_find?_eq_some ha)
    simp [Option.filter_some, hvalue]

theorem own?_eq_some_iff {element : Element}
    (hdistinct : (element.ownAttributes.map (·.name)).Nodup) {name value : String} :
    element.own? name = some value ↔ ∃ a ∈ element.ownAttributes,
      a.name = name ∧ a.value = value := by
  refine ⟨?_, ?_⟩
  · intro h
    obtain ⟨a, ha, rfl⟩ := Option.map_eq_some_iff.mp h
    exact ⟨a, List.mem_of_find?_eq_some ha, by simpa using List.find?_some ha, rfl⟩
  · intro h
    obtain ⟨a, ha, rfl, rfl⟩ := h
    cases hfound : element.ownAttributes.find? (·.name = a.name) with
    | none =>
      have hnone := List.find?_eq_none.mp hfound a ha
      simp at hnone
    | some b =>
      have hname : b.name = a.name := by simpa using List.find?_some hfound
      have hba : b = a :=
        List.inj_on_of_nodup_map hdistinct (List.mem_of_find?_eq_some hfound) ha hname
      rw [own?, hfound, hba]
      rfl

/--
**A visit reports no error exactly if** the own attributes have distinct names, each is known,
and nothing is wrong with its value.
-/
theorem visitAttributes_faultless_iff [LawfulAttributeSet α] (element : Element)
    (faults : α → AttributeValue → List Diagnostic) :
    Action.Faultless (element.visitAttributes fun kind v => (faults kind v).map .report) ↔
      (element.ownAttributes.map (·.name)).Nodup ∧
        ∀ a ∈ element.ownAttributes, ∃ kind, AttributeSet.ofName? a.name = some kind ∧
          ∀ d ∈ faults kind (Finding.value element kind a), d.isError = false := by
  have hfindings := findings_faultless_iff (α := α)
    (fun kind a => ∀ d ∈ faults kind (Finding.value element kind a), d.isError = false)
    element.attributes []
  simp only [← Finding.actions_faultless_iff, List.not_mem_nil, not_false_eq_true,
    true_and] at hfindings
  rw [ownAttributes, ← hfindings, visitAttributes, attributeFindings, Action.faultless_flatMap]

theorem isRemark_of_mem_visitAttributes (element : Element)
    (faults : α → AttributeValue → List Diagnostic) :
    ∀ action ∈ element.visitAttributes fun kind v => (faults kind v).map .report,
      action.isRemark = true := by
  intro action haction
  obtain ⟨finding, -, haction⟩ := List.mem_flatMap.mp haction
  cases finding with
  | foreign a => simp_all [Finding.actions]
  | unknown a => simp_all [Finding.actions]
  | repeated kind a => simp_all [Finding.actions]
  | first kind a =>
    obtain ⟨d, -, rfl⟩ := List.mem_map.mp haction
    rfl

/--
Faultless attributes, as the grammar puts it: the tag is well authored, and every value it has
is legal under its name.
-/
theorem faultless_iff_wellAuthored [LawfulAttributeSet α] (element : Element) {names : List String}
    (hnames : ∀ name, name ∈ names ↔ ∃ kind : α, AttributeSet.name kind = name)
    {faults : α → AttributeValue → List Diagnostic} (legal : α → String → Prop)
    (hfaults : ∀ kind v, (∀ d ∈ faults kind v, d.isError = false) ↔
      v.value ≠ "" ∧ legal kind v.value) :
    Action.Faultless (element.visitAttributes fun kind v => (faults kind v).map .report) ↔
      element.WellAuthored names ∧
        ∀ kind value, element.own? (AttributeSet.name kind) = some value → legal kind value := by
  rw [visitAttributes_faultless_iff]
  refine ⟨?_, ?_⟩
  · intro h
    obtain ⟨hdistinct, hall⟩ := h
    have hone : ∀ a ∈ element.ownAttributes, ∃ kind, AttributeSet.name kind = a.name ∧
        a.value ≠ "" ∧ legal kind a.value := by
      intro a ha
      obtain ⟨kind, hkind, hclean⟩ := hall a ha
      exact ⟨kind, LawfulAttributeSet.ofName?_eq_some.mp hkind, (hfaults _ _).mp hclean⟩
    refine ⟨⟨hdistinct, ?_, ?_⟩, ?_⟩
    · intro a ha
      obtain ⟨kind, hkind, -⟩ := hone a ha
      exact (hnames a.name).mpr ⟨kind, hkind⟩
    · intro a ha
      obtain ⟨-, -, hvalue, -⟩ := hone a ha
      exact hvalue
    · intro kind value hvalue
      obtain ⟨a, ha, hname, rfl⟩ := (own?_eq_some_iff hdistinct).mp hvalue
      obtain ⟨other, hother, hclean⟩ := hall a ha
      rw [hname, LawfulAttributeSet.ofName?_eq_some.mpr rfl, Option.some.injEq] at hother
      rw [← hother] at hclean
      exact ((hfaults _ _).mp hclean).2
  · intro h
    obtain ⟨hauthored, hlegal⟩ := h
    refine ⟨hauthored.distinct, fun a ha => ?_⟩
    obtain ⟨kind, hkind⟩ := (hnames a.name).mp (hauthored.known a ha)
    have hvalue : element.own? (AttributeSet.name kind) = some a.value :=
      (own?_eq_some_iff hauthored.distinct).mpr ⟨a, ha, hkind.symm, rfl⟩
    exact ⟨kind, LawfulAttributeSet.ofName?_eq_some.mpr hkind,
      (hfaults kind _).mpr ⟨hauthored.nonempty a ha, hlegal kind a.value hvalue⟩⟩

end Xml.Element

/-! ### What is wrong with a value -/

/-- Whether a message is about the value of an attribute. -/
def Message.isAboutValue : Message → Bool
  | illegalEmptyAttributeValue .. | illegalIdentifier .. | illegalAttributeValue .. => true
  | _ => false

theorem Message.isError_of_isAboutValue {message : Message} (h : message.isAboutValue = true) :
    message.isError = true := by
  unfold isAboutValue at h
  split at h <;> first | rfl | exact absurd h Bool.false_ne_true

namespace Choice

theorem mem_tokens_iff {α : Type} [Choice α] (token : String) :
    token ∈ tokens α ↔ (ofToken? (α := α) token).isSome = true := by
  rw [tokens, ofToken?, List.lookup_isSome_iff]
  simp

/-- A word that is legal wherever it is authored gives a value, with a default where it is not. -/
theorem elim_ofToken? {α : Type} [Choice α] (current : α) {token? : Option String}
    (h : ∀ token, token? = some token → token ∈ tokens α) :
    token?.elim (some current) ofToken? = some ((token?.bind ofToken?).getD current) := by
  cases token? with
  | none => rfl
  | some token =>
    obtain ⟨value, hvalue⟩ := Option.isSome_iff_exists.mp ((mem_tokens_iff token).mp (h token rfl))
    rw [Option.elim_some, Option.bind_some, hvalue]
    rfl

end Choice

namespace AttributeValue

theorem isAboutValue_of_mem_textFaults (v : AttributeValue) :
    ∀ d ∈ v.textFaults, d.message.isAboutValue = true := by
  intro d hd
  unfold textFaults at hd
  split at hd
  · rw [List.mem_singleton.mp hd]
    rfl
  · exact absurd hd List.not_mem_nil

theorem isAboutValue_of_mem_identifierFaults (v : AttributeValue) :
    ∀ d ∈ v.identifierFaults, d.message.isAboutValue = true := by
  intro d hd
  unfold identifierFaults at hd
  split at hd
  · exact v.isAboutValue_of_mem_textFaults d hd
  · split at hd
    · exact absurd hd List.not_mem_nil
    · rw [List.mem_singleton.mp hd]
      rfl

theorem isAboutValue_of_mem_choiceFaults (α : Type) [Choice α] (v : AttributeValue) :
    ∀ d ∈ if v.value = "" then v.textFaults else v.choiceFaults α,
      d.message.isAboutValue = true := by
  intro d hd
  split at hd
  · exact v.isAboutValue_of_mem_textFaults d hd
  · unfold choiceFaults at hd
    split at hd
    · exact absurd hd List.not_mem_nil
    · rw [List.mem_singleton.mp hd]
      rfl

theorem textFaults_faultless_iff (v : AttributeValue) :
    (∀ d ∈ v.textFaults, d.isError = false) ↔ v.value ≠ "" := by
  by_cases hempty : v.value = "" <;> simp [textFaults, hempty, Message.isError, Message.severity]

theorem identifierFaults_faultless_iff (v : AttributeValue) :
    (∀ d ∈ v.identifierFaults, d.isError = false) ↔
      v.value ≠ "" ∧ Identifier.isLegal v.value = true := by
  by_cases hempty : v.value = ""
  · simp [identifierFaults, textFaults, hempty, Message.isError, Message.severity]
  · by_cases hlegal : Identifier.isLegal v.value = true <;>
      simp [identifierFaults, hempty, hlegal, Message.isError, Message.severity]

theorem choiceFaults_faultless_iff {α : Type} [Choice α] (v : AttributeValue) :
    (∀ d ∈ if v.value = "" then v.textFaults else v.choiceFaults α, d.isError = false) ↔
      v.value ≠ "" ∧ v.value ∈ Choice.tokens α := by
  rw [Choice.mem_tokens_iff]
  by_cases hempty : v.value = ""
  · simp [textFaults, hempty, Message.isError, Message.severity]
  · cases hchoice : Choice.ofToken? (α := α) v.value <;>
      simp [choiceFaults, hempty, hchoice, Message.isError, Message.severity]

end AttributeValue

/-! ### The two kinds of element -/

theorem AceAttribute.isAboutValue_of_mem_faults (kind : AceAttribute) (v : AttributeValue) :
    ∀ d ∈ kind.faults v, d.message.isAboutValue = true := by
  cases kind with
  | id => exact v.isAboutValue_of_mem_identifierFaults
  | securityPrincipal => exact v.isAboutValue_of_mem_textFaults
  | rights => exact v.isAboutValue_of_mem_choiceFaults Rights

theorem ReservationAttribute.isAboutValue_of_mem_faults (kind : ReservationAttribute)
    (v : AttributeValue) : ∀ d ∈ kind.faults v, d.message.isAboutValue = true := by
  cases kind with
  | id => exact v.isAboutValue_of_mem_identifierFaults
  | handleExisting => exact v.isAboutValue_of_mem_choiceFaults HandleExisting
  | sddl => exact v.isAboutValue_of_mem_textFaults
  | url => exact v.isAboutValue_of_mem_textFaults

/-- What the grammar asks of a value of an access control entry, besides that it is not empty. -/
def AceAttribute.Legal : AceAttribute → String → Prop
  | id, value => Identifier.isLegal value = true
  | securityPrincipal, _ => True
  | rights, value => value ∈ Choice.tokens Rights

theorem AceAttribute.faultless_iff (ace : Element) :
    Action.Faultless (ace.visitAttributes fun kind v => (faults kind v).map .report) ↔
      ace.WellAuthored ["Id", "SecurityPrincipal", "Rights"] ∧
        (∀ id, ace.own? "Id" = some id → Identifier.isLegal id = true) ∧
        ∀ token, ace.own? "Rights" = some token → token ∈ Choice.tokens Rights := by
  rw [ace.faultless_iff_wellAuthored ?_ Legal ?_]
  · refine and_congr_right fun _ => ⟨fun h => ⟨h .id, h .rights⟩, fun h kind value hvalue => ?_⟩
    cases kind with
    | id => exact h.1 value hvalue
    | securityPrincipal => trivial
    | rights => exact h.2 value hvalue
  · intro name
    refine ⟨?_, ?_⟩
    · intro h
      simp only [List.mem_cons, List.not_mem_nil, or_false] at h
      rcases h with rfl | rfl | rfl
      · exact ⟨id, rfl⟩
      · exact ⟨securityPrincipal, rfl⟩
      · exact ⟨rights, rfl⟩
    · intro h
      obtain ⟨kind, rfl⟩ := h
      cases kind <;> simp [AttributeSet.name, AceAttribute.name]
  · intro kind v
    cases kind with
    | id => exact v.identifierFaults_faultless_iff
    | securityPrincipal => simpa [faults, Legal] using v.textFaults_faultless_iff
    | rights => exact v.choiceFaults_faultless_iff

/-- What the grammar asks of a value of a reservation, besides that it is not empty. -/
def ReservationAttribute.Legal : ReservationAttribute → String → Prop
  | id, value => Identifier.isLegal value = true
  | handleExisting, value => value ∈ Choice.tokens HandleExisting
  | sddl, _ => True
  | url, _ => True

theorem ReservationAttribute.faultless_iff (element : Element) :
    Action.Faultless (element.visitAttributes fun kind v => (faults kind v).map .report) ↔
      element.WellAuthored ["Id", "HandleExisting", "Sddl", "Url"] ∧
        (∀ id, element.own? "Id" = some id → Identifier.isLegal id = true) ∧
        ∀ token, element.own? "HandleExisting" = some token →
          token ∈ Choice.tokens HandleExisting := by
  rw [element.faultless_iff_wellAuthored ?_ Legal ?_]
  · refine and_congr_right fun _ =>
      ⟨fun h => ⟨h .id, h .handleExisting⟩, fun h kind value hvalue => ?_⟩
    cases kind with
    | id => exact h.1 value hvalue
    | handleExisting => exact h.2 value hvalue
    | sddl => trivial
    | url => trivial
  · intro name
    refine ⟨?_, ?_⟩
    · intro h
      simp only [List.mem_cons, List.not_mem_nil, or_false] at h
      rcases h with rfl | rfl | rfl | rfl
      · exact ⟨id, rfl⟩
      · exact ⟨handleExisting, rfl⟩
      · exact ⟨sddl, rfl⟩
      · exact ⟨url, rfl⟩
    · intro h
      obtain ⟨kind, rfl⟩ := h
      cases kind <;> simp [AttributeSet.name, ReservationAttribute.name]
  · intro kind v
    cases kind with
    | id => exact v.identifierFaults_faultless_iff
    | handleExisting => exact v.choiceFaults_faultless_iff
    | sddl => simpa [faults, Legal] using v.textFaults_faultless_iff
    | url => simpa [faults, Legal] using v.textFaults_faultless_iff

end UrlReservations
