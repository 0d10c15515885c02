/-
Every attribute of an element, taken once.

A walk over the attributes of an element keeps the names it has met and leaves each attribute in
one of four ways: it is forwarded, reported as unexpected, reported as a duplicate, or visited.
Here the walk is written down as such (`visitBy`), for a host that may be anything and a visitor
that may do anything with it, and the findings the readers work with turn out to say all about it:
the walk does for each finding in turn what that finding calls for.

What an attribute is found to be needs no list of names met.  It depends on the attribute and on
those that stand before it (`Attribute.findingAfter`), and of these on the own ones of its name
only.  That the names met are the names of the own attributes before is the invariant of the walk
(`Met`), and the one induction here that needs it is `getElem?_findings`.
-/
import UrlReservations.Proofs.ForeignMarkup
import UrlReservations.Proofs.Inspection

namespace UrlReservations

open Xml (Attribute Element)

/-! ### Walking over attributes -/

/-- A host and the visitor it lends itself to, as what they do to a state they share. -/
structure Visitor (α τ : Type) where
  /-- The host takes an attribute of another extension on an element. -/
  forward : Element → Attribute → τ → τ
  /-- The host takes a diagnostic. -/
  report : Diagnostic → τ → τ
  /-- The visitor takes the value of an attribute. -/
  visit : α → AttributeValue → τ → τ

namespace Visitor

variable {α τ : Type} [AttributeSet α]

/-- What a finding about an element calls for. -/
def handle (visitor : Visitor α τ) (element : Element) (t : τ) : Finding α → τ
  | .foreign a => visitor.forward element a t
  | .unknown a => visitor.report ⟨a.pos, .unexpectedAttribute element.name a.name⟩ t
  | .repeated kind a =>
    visitor.report ⟨a.pos, .duplicateAttribute element.name (AttributeSet.name kind)⟩ t
  | .first kind a => visitor.visit kind (Finding.value element kind a) t

/-- A host that notes down what it is asked for. -/
def asking (visit : α → AttributeValue → List Action) : Visitor α (List Action) where
  forward element a asked := asked ++ [.forwardAttribute element a]
  report d asked := asked ++ [.report d]
  visit kind v asked := asked ++ visit kind v

/-- Walk over attributes of an element, with the names met so far. -/
def walk [DecidableEq α] (visitor : Visitor α τ) (element : Element) (seen : List α) :
    List Attribute → τ → τ
  | [], t => t
  | a :: rest, t =>
    if a.isOwn then
      match AttributeSet.ofName? a.name with
      | none =>
        walk visitor element seen rest
          (visitor.report ⟨a.pos, .unexpectedAttribute element.name a.name⟩ t)
      | some kind =>
        if kind ∈ seen then
          walk visitor element seen rest
            (visitor.report ⟨a.pos, .duplicateAttribute element.name (AttributeSet.name kind)⟩ t)
        else walk visitor element (kind :: seen) rest
          (visitor.visit kind (Finding.value element kind a) t)
    else walk visitor element seen rest (visitor.forward element a t)

end Visitor

/-- Walk over all attributes of an element, in document order. -/
def Xml.Element.visitBy {α τ : Type} [AttributeSet α] [DecidableEq α] (element : Element)
    (visitor : Visitor α τ) (t : τ) : τ :=
  visitor.walk element [] element.attributes t

/-! ### What an attribute is found to be -/

/-- What an attribute is that stands after some others. -/
def Xml.Attribute.findingAfter (α : Type) [AttributeSet α] (before : List Attribute)
    (a : Attribute) : Finding α :=
  if a.isOwn then
    match AttributeSet.ofName? a.name with
    | none => .unknown a
    | some kind =>
      if before.any fun b => b.isOwn && b.name = a.name then .repeated kind a else .first kind a
  else .foreign a

namespace Finding

variable {α : Type}

/-- The attribute that was found to be something. -/
def about : Finding α → Attribute
  | foreign a | unknown a | repeated _ a | first _ a => a

/-- The attribute of another extension that was found. -/
def foreign? : Finding α → Option Attribute
  | foreign a => some a
  | _ => none

/-- The unknown attribute that was found. -/
def unknown? : Finding α → Option Attribute
  | unknown a => some a
  | _ => none

/-- The repetition that was found. -/
def repeated? : Finding α → Option (α × Attribute)
  | repeated kind a => some (kind, a)
  | _ => none

end Finding

section Walk

variable {α τ : Type} [AttributeSet α]

/-- A host that notes down what it is asked for has noted what the readers ask for. -/
theorem Visitor.foldl_handle_asking (visit : α → AttributeValue → List Action) (element : Element)
    (found : List (Finding α)) (asked : List Action) :
    found.foldl ((asking visit).handle element) asked
      = asked ++ found.flatMap (Finding.actions element visit) := by
  have hhandle : (asking visit).handle element = fun asked finding =>
      asked ++ finding.actions element visit := by
    funext asked finding
    cases finding <;> rfl
  rw [hhandle, List.foldl_append_eq_append, List.flatMap_def]

/-- Every finding is of one kind. -/
theorem Finding.length_eq (element : Element) (found : List (Finding α)) :
    (found.filterMap (first? element)).length + (found.filterMap repeated?).length
      + (found.filterMap unknown?).length + (found.filterMap foreign?).length = found.length := by
  induction found with
  | nil => rfl
  | cons finding rest ih =>
    rw [List.length_cons, ← ih]
    cases finding <;> simp only [List.filterMap_cons, first?, repeated?, unknown?, foreign?,
      List.length_cons] <;> omega

/--
The first attribute of its name is an own one of a known name, with none of its name before it.
-/
theorem Xml.Attribute.findingAfter_eq_first_iff {before : List Attribute} {a b : Attribute}
    {kind : α} :
    b.findingAfter α before = .first kind a ↔
      b = a ∧ a.isOwn = true ∧ AttributeSet.ofName? a.name = some kind ∧
      ∀ other ∈ before, other.isOwn = true → other.name ≠ a.name := by
  refine ⟨?_, ?_⟩
  · intro h
    unfold findingAfter at h
    split at h
    · rename_i hown
      split at h
      · cases h
      · rename_i hkind
        split at h
        · cases h
        · rename_i hfresh
          cases h
          exact ⟨rfl, hown, hkind, by simpa using hfresh⟩
    · cases h
  · rintro ⟨rfl, hown, hkind, hfresh⟩
    have hnone : ¬ (before.any fun other => other.isOwn && other.name = b.name) = true := by
      simpa using hfresh
    simp only [findingAfter, if_pos hown, hkind, if_neg hnone]

/-- An attribute is found under a kind only if its name is known as that of the kind. -/
theorem Xml.Attribute.ofName?_of_findingAfter {before : List Attribute} {a b : Attribute} {kind : α}
    (h : b.findingAfter α before = .first kind a ∨ b.findingAfter α before = .repeated kind a) :
    AttributeSet.ofName? a.name = some kind := by
  unfold findingAfter at h
  split at h
  · split at h
    · simp at h
    · rename_i hkind
      split at h
      · simp only [reduceCtorEq, false_or, Finding.repeated.injEq] at h
        rw [← h.1, ← h.2, hkind]
      · simp only [reduceCtorEq, or_false, Finding.first.injEq] at h
        rw [← h.1, ← h.2, hkind]
  · simp at h

variable [DecidableEq α]

/-- The walk does what its findings call for, one after the other. -/
theorem Visitor.walk_eq_foldl (visitor : Visitor α τ) (element : Element) (seen : List α)
    (attributes : List Attribute) (t : τ) :
    visitor.walk element seen attributes t
      = (findings seen attributes).foldl (visitor.handle element) t := by
  -- one case for no attributes, and one for each way to leave the first:
  -- unknown, repeated, visited, foreign
  fun_induction findings seen attributes generalizing t with
  | case1 seen => rfl
  | case2 seen a rest hown hkind ih =>
    rw [walk, if_pos hown, hkind]
    exact ih _
  | case3 seen a rest hown kind hkind hseen ih =>
    simp only [walk, if_pos hown, hkind, if_pos hseen]
    exact ih _
  | case4 seen a rest hown kind hkind hseen ih =>
    simp only [walk, if_pos hown, hkind, if_neg hseen]
    exact ih _
  | case5 seen a rest hown ih =>
    rw [walk, if_neg hown]
    exact ih _

/-- There is one finding for each attribute, in their order. -/
theorem map_about_findings (seen : List α) (attributes : List Attribute) :
    (findings seen attributes).map Finding.about = attributes := by
  fun_induction findings seen attributes with
  | case1 seen => rfl
  | case2 seen a rest hown hkind ih => exact congrArg (a :: ·) ih
  | case3 seen a rest hown kind hkind hseen ih => exact congrArg (a :: ·) ih
  | case4 seen a rest hown kind hkind hseen ih => exact congrArg (a :: ·) ih
  | case5 seen a rest hown ih => exact congrArg (a :: ·) ih

/-- No name is met twice, and none that was met before. -/
theorem nodup_first (element : Element) (seen : List α) (attributes : List Attribute) :
    (((findings seen attributes).filterMap (Finding.first? element)).map (·.1)).Nodup ∧
      ∀ kind ∈ ((findings seen attributes).filterMap (Finding.first? element)).map (·.1),
        kind ∉ seen := by
  fun_induction findings seen attributes with
  | case1 seen => simp
  | case2 seen a rest hown hkind ih => exact ih
  | case3 seen a rest hown kind hkind hseen ih => exact ih
  | case4 seen a rest hown kind hkind hseen ih =>
    obtain ⟨hnodup, hfresh⟩ := ih
    rw [List.filterMap_cons, Finding.first?, List.map_cons, List.nodup_cons, List.forall_mem_cons]
    refine ⟨⟨fun hmem => hfresh kind hmem List.mem_cons_self, hnodup⟩, hseen, ?_⟩
    exact fun other hother hmem => hfresh other hother (List.mem_cons_of_mem kind hmem)
  | case5 seen a rest hown ih => exact ih

/-- An attribute is found to be what it is after those before it, and the names met are theirs. -/
theorem findings_cons (hnames : NamesAgree α) {seen : List α} {before : List Attribute}
    (hmet : Met seen before) (a : Attribute) (rest : List Attribute) :
    ∃ seen', Met seen' (before ++ [a]) ∧
      findings seen (a :: rest) = a.findingAfter α before :: findings seen' rest := by
  rw [findings, Attribute.findingAfter]
  by_cases hown : a.isOwn = true
  · rw [if_pos hown, if_pos hown]
    cases hkind : AttributeSet.ofName? (α := α) a.name with
    | none => exact ⟨seen, hmet.append (by simp [hkind]), rfl⟩
    | some kind =>
      have hmem := hmet.mem_iff hnames hkind
      by_cases hseen : kind ∈ seen
      · refine ⟨seen, hmet.append (by simp_all), ?_⟩
        simp only [if_pos hseen, if_pos (hmem.mp hseen)]
      · refine ⟨kind :: seen, hmet.append (by simp [hown, hkind, or_comm, eq_comm]), ?_⟩
        simp only [if_neg hseen, if_neg (mt hmem.mpr hseen)]
  · rw [if_neg hown, if_neg hown]
    exact ⟨seen, hmet.append (by simp [hown]), rfl⟩

theorem getElem?_findings (hnames : NamesAgree α) (attributes : List Attribute) {seen : List α}
    {before : List Attribute} (hmet : Met seen before) (i : Nat) :
    (findings seen attributes)[i]?
      = attributes[i]?.map (·.findingAfter α (before ++ attributes.take i)) := by
  induction attributes generalizing seen before i with
  | nil => simp [findings]
  | cons a rest ih =>
    obtain ⟨seen', hmet', hcons⟩ := findings_cons hnames hmet a rest
    rw [hcons]
    cases i with
    | zero => simp
    | succ i =>
      rw [List.getElem?_cons_succ, List.getElem?_cons_succ, ih hmet', List.take_succ_cons,
        List.append_assoc]
      rfl

end Walk

namespace Xml.Element

variable {α : Type} [AttributeSet α] [DecidableEq α]

/-- The attributes of an element, each found to be one thing, and what follows for the visits. -/
structure AttributesDivided (element : Element) (α : Type) [AttributeSet α] [DecidableEq α] :
    Prop where
  /--
  There is one finding for each attribute, in their order, and it is
  about the attribute and those before it.
  -/
  each : ∀ i, (element.attributeFindings α)[i]?
    = element.attributes[i]?.map fun a : Attribute => a.findingAfter α (element.attributes.take i)
  /-- Known attributes are visited and reported under their own names. -/
  named : ∀ kind a,
    .first kind a ∈ element.attributeFindings α ∨ .repeated kind a ∈ element.attributeFindings α →
    AttributeSet.name kind = a.name
  /-- A visit is that of an own attribute of a known name with none of its name before it. -/
  visits : ∀ kind v, (kind, v) ∈ element.visited α ↔
    ∃ i a, element.attributes[i]? = some a ∧ a.isOwn = true ∧
      AttributeSet.ofName? a.name = some kind ∧
      (∀ b ∈ element.attributes.take i, b.isOwn = true → b.name ≠ a.name) ∧
      v = ⟨element.name, a.name, a.value, a.pos⟩
  distinct : ((element.visited α).map (·.1)).Nodup
  /-- Attributes of other extensions make no difference to what the others are found to be. -/
  own : (element.attributeFindings α).filter (!·.isForeign)
    = (⟨element.ownTag, element.content⟩ : Element).attributeFindings α
  total : (element.visited α).length
      + ((element.attributeFindings α).filterMap Finding.repeated?).length
      + ((element.attributeFindings α).filterMap Finding.unknown?).length
      + ((element.attributeFindings α).filterMap Finding.foreign?).length
    = element.attributes.length

/-- An attribute is what it is after those before it. -/
theorem getElem?_attributeFindings (hnames : NamesAgree α) (element : Element) (i : Nat) :
    (element.attributeFindings α)[i]?
      = element.attributes[i]?.map fun a : Attribute =>
        a.findingAfter α (element.attributes.take i) :=
  getElem?_findings hnames element.attributes Met.nil i

theorem mem_attributeFindings_iff (hnames : NamesAgree α) (element : Element)
    (finding : Finding α) :
    finding ∈ element.attributeFindings α ↔
      ∃ i, ∃ a : Attribute, element.attributes[i]? = some a ∧
        a.findingAfter α (element.attributes.take i) = finding := by
  simp only [List.mem_iff_getElem?, getElem?_attributeFindings hnames, Option.map_eq_some_iff]

/-- A known attribute is found under the kind whose name it has. -/
theorem name_eq_of_mem_attributeFindings (hnames : NamesAgree α) {element : Element} {kind : α}
    {a : Attribute}
    (h : .first kind a ∈ element.attributeFindings α ∨
      .repeated kind a ∈ element.attributeFindings α) : AttributeSet.name kind = a.name := by
  refine hnames a.name kind ?_
  rcases h with h | h
  · obtain ⟨i, b, -, hfinding⟩ := (mem_attributeFindings_iff hnames element _).mp h
    exact Attribute.ofName?_of_findingAfter (.inl hfinding)
  · obtain ⟨i, b, -, hfinding⟩ := (mem_attributeFindings_iff hnames element _).mp h
    exact Attribute.ofName?_of_findingAfter (.inr hfinding)

theorem mem_visited_iff_first (element : Element) (kind : α) (v : AttributeValue) :
    (kind, v) ∈ element.visited α ↔ ∃ a,
      .first kind a ∈ element.attributeFindings α ∧ Finding.value element kind a = v := by
  rw [visited, List.mem_filterMap]
  refine ⟨?_, ?_⟩
  · rintro ⟨finding, hfinding, hvisit⟩
    cases finding with
    | first found a =>
      obtain ⟨rfl, hvalue⟩ : found = kind ∧ Finding.value element found a = v := by
        simpa [Finding.first?] using hvisit
      exact ⟨a, hfinding, hvalue⟩
    | _ => simp [Finding.first?] at hvisit
  · rintro ⟨a, hfinding, rfl⟩
    exact ⟨.first kind a, hfinding, rfl⟩

/-- What is visited is the value of the first own attribute of a known name. -/
theorem mem_visited_iff (hnames : NamesAgree α) (element : Element) (kind : α)
    (v : AttributeValue) :
    (kind, v) ∈ element.visited α ↔ ∃ i a, element.attributes[i]? = some a ∧ a.isOwn = true ∧
      AttributeSet.ofName? a.name = some kind ∧
        (∀ b ∈ element.attributes.take i, b.isOwn = true → b.name ≠ a.name) ∧
      v = ⟨element.name, a.name, a.value, a.pos⟩ := by
  rw [mem_visited_iff_first]
  refine ⟨?_, ?_⟩
  · rintro ⟨a, hfound, rfl⟩
    have hname := name_eq_of_mem_attributeFindings hnames (.inl hfound)
    obtain ⟨i, b, hb, hfinding⟩ := (mem_attributeFindings_iff hnames element _).mp hfound
    obtain ⟨rfl, hown, hkind, hfresh⟩ := Attribute.findingAfter_eq_first_iff.mp hfinding
    exact ⟨i, b, hb, hown, hkind, hfresh, by rw [Finding.value, hname]⟩
  · rintro ⟨i, a, ha, hown, hkind, hfresh, rfl⟩
    refine ⟨a, (mem_attributeFindings_iff hnames element _).mpr ⟨i, a, ha, ?_⟩, ?_⟩
    · exact Attribute.findingAfter_eq_first_iff.mpr ⟨rfl, hown, hkind, hfresh⟩
    · rw [Finding.value, hnames a.name kind hkind]

theorem attributesDivided (hnames : NamesAgree α) (element : Element) :
    element.AttributesDivided α where
  each := element.getElem?_attributeFindings hnames
  named _ _ := name_eq_of_mem_attributeFindings hnames
  visits := element.mem_visited_iff hnames
  distinct := (nodup_first element [] element.attributes).1
  own := (findings_ownAttributes element.attributes []).symm
  total := by
    rw [visited, Finding.length_eq, ← List.length_map Finding.about, attributeFindings,
      map_about_findings]

end Xml.Element

/--
**Every attribute of an element is handled once, in document order.**

Whatever the host and the visitor are, the walk over the attributes does for each of them what it
is found to be calls for, and that is settled by the attribute and the own ones of its name before
it: the first one of a known name is visited, with its value and at its position, any later one is
reported as a duplicate, one of an unknown name as unexpected, and one of another extension is
forwarded and makes no difference to the others.  The readers walk so, with a host that notes down
what it is asked for.
-/
theorem attributes_handled_once {α : Type} [AttributeSet α] [DecidableEq α] (hnames : NamesAgree α)
    (element : Element) :
    element.AttributesDivided α ∧
    (∀ (τ : Type) (visitor : Visitor α τ) (t : τ),
      element.visitBy visitor t = (element.attributeFindings α).foldl (visitor.handle element) t) ∧
    ∀ visit : α → AttributeValue → List Action,
      element.visitAttributes visit = element.visitBy (.asking visit) [] := by
  refine ⟨element.attributesDivided hnames, ?_, ?_⟩
  · intro τ visitor t
    exact visitor.walk_eq_foldl element [] element.attributes t
  · intro visit
    rw [Element.visitBy, Visitor.walk_eq_foldl, Visitor.foldl_handle_asking, List.nil_append]
    rfl

/-- An element with six attributes, of which four are named alike. -/
def crowdedElement : Element :=
  let http := some Vocabulary.httpNamespace
  ⟨⟨http, "UrlReservation",
    [⟨some "urn:other", "Id", "A", ⟨1, 2⟩⟩, ⟨none, "Id", "", ⟨1, 3⟩⟩, ⟨http, "Id", "B", ⟨1, 4⟩⟩,
      ⟨none, "Bogus", "C", ⟨1, 5⟩⟩,
      ⟨http, "Url", "D", ⟨1, 6⟩⟩, ⟨none, "Id", "E", ⟨1, 7⟩⟩], ⟨1, 1⟩⟩, []⟩

/-- The foreign namesake goes by, and the empty one counts as the first. -/
theorem attributes_handled_once_crowded :
    NamesAgree ReservationAttribute ∧ crowdedElement.AttributesDivided ReservationAttribute ∧
      crowdedElement.visited ReservationAttribute
        = [(.id, ⟨"UrlReservation", "Id", "", ⟨1, 3⟩⟩),
          (.url, ⟨"UrlReservation", "Url", "D", ⟨1, 6⟩⟩)] ∧
      (crowdedElement.visitAttributes
          fun (_ : ReservationAttribute) _ => []).filterMap Action.diagnostic?
        = [⟨⟨1, 2⟩, .unsupportedExtensionAttribute "UrlReservation" "urn:other" "Id"⟩,
            ⟨⟨1, 4⟩, .duplicateAttribute "UrlReservation" "Id"⟩,
            ⟨⟨1, 5⟩, .unexpectedAttribute "UrlReservation" "Bogus"⟩,
            ⟨⟨1, 7⟩, .duplicateAttribute "UrlReservation" "Id"⟩] :=
  ⟨namesAgree, (attributes_handled_once namesAgree crowdedElement).1, by decide, by decide⟩

end UrlReservations
