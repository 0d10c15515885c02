/-
Editing the entries of a document.

An edit that keeps the names of entries leaves everything around them alone: every entry stands
where it stood (`entries_editEntries`), and its place looks as it did, because an element that does
not belong to the extension keeps its tag (`alike_editEntries`).  What an edit does to a compilation
is then a matter of the entries alone.

An edit reaches the outermost elements of the extension, which are the entries.  Below one there
are no others, so the walk down the tree can stop there.
-/
import UrlReservations.Proofs.Lookalikes

namespace UrlReservations

namespace Xml

/-- The node that an element is. -/
def Element.toNode (element : Element) : Node := .element element.tag element.content

variable (edit : Element → Element)

mutual

/--
Edit a node that nothing of the extension encloses: the elements of
the extension in it, no other enclosing them.
-/
def Node.editEntries : Node → Node
  | .element tag content =>
    if Element.isHttp ⟨tag, content⟩ then (edit ⟨tag, content⟩).toNode
    else .element tag (editEntriesIn content)
  | .text data => .text data
  | .remark r => .remark r

/-- Edit each of some nodes. -/
def editEntriesIn : List Node → List Node
  | [] => []
  | node :: rest => node.editEntries :: editEntriesIn rest

end

/-- Edit an element that nothing of the extension encloses. -/
def Element.editEntries (element : Element) : Element :=
  if element.isHttp then edit element else ⟨element.tag, editEntriesIn edit element.content⟩

/-- Edit the entries of a document; where the root belongs to the extension, there are none. -/
def Document.editEntries (doc : Document) : Document :=
  if doc.root.isHttp then doc else { doc with root := doc.root.editEntries edit }

/-- Edit the entries at a step of a place that is not below an entry. -/
def Step.editEntries (step : Step) : Step :=
  ⟨step.before.map (Element.editEntries edit), step.element.editEntries edit⟩

/-- Such a place after the edit. -/
def Place.editEntries (place : Place) : Place :=
  ⟨place.toStep.editEntries edit, place.above.map (Step.editEntries edit)⟩

/-- An edit that leaves names and positions of elements as they are. -/
structure KeepsNames : Prop where
  uri : ∀ element, (edit element).uri? = element.uri?
  name : ∀ element, (edit element).name = element.name
  pos : ∀ element, (edit element).pos = element.pos

variable {edit}

/-! ### Elements -/

namespace Element

theorem editEntries_of_isHttp {element : Element} (h : element.isHttp = true) :
    element.editEntries edit = edit element := by
  rw [editEntries, if_pos h]

theorem editEntries_of_not_isHttp {element : Element} (h : element.isHttp = false) :
    element.editEntries edit = ⟨element.tag, editEntriesIn edit element.content⟩ := by
  rw [editEntries, if_neg (by simp [h])]

theorem tag_editEntries {element : Element} (h : element.isHttp = false) :
    (element.editEntries edit).tag = element.tag := by
  rw [editEntries_of_not_isHttp h]

theorem sameHead_editEntries (hedit : KeepsNames edit) (element : Element) :
    (element.editEntries edit).SameHead element := by
  cases h : element.isHttp with
  | true =>
    rw [editEntries_of_isHttp h]
    exact ⟨hedit.uri element, hedit.name element, hedit.pos element⟩
  | false => exact .of_tag (tag_editEntries h)

end Element

theorem Node.editEntries_element (tag : Tag) (content : List Node) :
    (Node.element tag content).editEntries edit
      = (Element.editEntries edit ⟨tag, content⟩).toNode := by
  rw [editEntries]
  cases h : Element.isHttp ⟨tag, content⟩ with
  | true => rw [Element.editEntries_of_isHttp h, if_pos rfl]
  | false =>
    rw [Element.editEntries_of_not_isHttp h, if_neg Bool.false_ne_true]
    rfl

theorem Node.element?_editEntries (node : Node) :
    (node.editEntries edit).element? = node.element?.map (Element.editEntries edit) := by
  cases node with
  | element tag content =>
    rw [editEntries_element]
    rfl
  | text data => simp [editEntries]
  | remark r => simp [editEntries]

/-! ### Places -/

section Places

variable (hedit : KeepsNames edit)
include hedit

theorem Step.alike_editEntries (step : Step) : (step.editEntries edit).Alike step where
  head := Element.sameHead_editEntries hedit step.element
  tag h :=
    Element.tag_editEntries ((Element.sameHead_editEntries hedit step.element).isHttp.symm.trans h)
  before := by
    rw [editEntries, List.forall₂_map_left_iff, List.forall₂_same]
    exact fun element _ => Element.sameHead_editEntries hedit element

namespace Place

/-- **A place looks as it did before the edit.** -/
theorem alike_editEntries (place : Place) : (place.editEntries edit).Alike place := by
  show List.Forall₂ Step.Alike (place.steps.map (Step.editEntries edit)) place.steps
  rw [List.forall₂_map_left_iff, List.forall₂_same]
  exact fun step _ => step.alike_editEntries hedit

omit hedit in
theorem parent?_editEntries (place : Place) :
    (place.editEntries edit).parent? = place.parent?.map (editEntries edit) := by
  rw [parent?, parent?, editEntries]
  cases place.above <;> rfl

end Place

end Places

/-! ### Entries -/

/-- An edit takes the entries of some nodes to those of the edited nodes. -/
theorem entries_editEntriesIn (hedit : KeepsNames edit) (nodes : List Node) :
    ∀ (above : List Step) (before : List Element),
      (placesIn (above.map (Step.editEntries edit)) (before.map (Element.editEntries edit))
          (editEntriesIn edit nodes)).filter (·.isEntry)
        = ((placesIn above before nodes).filter (·.isEntry)).map (Place.editEntries edit) := by
  have hrest : ∀ (before : List Element) (node : Node),
      before.map (Element.editEntries edit) ++ (node.editEntries edit).element?.toList
        = (before ++ node.element?.toList).map (Element.editEntries edit) := by
    intro before node
    rw [Node.element?_editEntries, List.map_append]
    cases node.element? <;> rfl
  induction nodes using Node.forestInduction with
  | nil =>
    intro above before
    rfl
  | element tag content rest ihContent ihRest =>
    intro above before
    rw [editEntriesIn, placesIn, placesIn, hrest, List.filter_append, List.filter_append,
      ihRest above _, List.map_append]
    congr 1
    let here : Step := ⟨before, ⟨tag, content⟩⟩
    have hplace : (Place.editEntries edit ⟨here, above⟩).isEntry
        = (⟨here, above⟩ : Place).isEntry :=
      (Place.alike_editEntries hedit ⟨here, above⟩).isEntry
    -- below an entry there are none, and below anything else the edit goes on
    have hbelow : (placesIn (here.editEntries edit :: above.map (Step.editEntries edit)) []
          (here.editEntries edit).element.content).filter (·.isEntry)
        = ((placesIn (here :: above) [] content).filter (·.isEntry)).map
          (Place.editEntries edit) := by
      cases hhttp : Element.isHttp ⟨tag, content⟩ with
      | true =>
        have hedited := (Element.sameHead_editEntries hedit ⟨tag, content⟩).isHttp.trans hhttp
        rw [filter_isEntry_eq_nil ⟨_, List.mem_cons_self, hedited⟩,
          filter_isEntry_eq_nil ⟨_, List.mem_cons_self, hhttp⟩]
        rfl
      | false =>
        have hcontent : (here.editEntries edit).element.content = editEntriesIn edit content :=
          congrArg Element.content (Element.editEntries_of_not_isHttp hhttp)
        rw [hcontent]
        exact ihContent (here :: above) []
    rw [Node.editEntries_element, Element.toNode, Node.places, Node.places, List.filter_cons,
      List.filter_cons]
    show (if (Place.editEntries edit ⟨here, above⟩).isEntry = true then _ else _) = _
    rw [hplace]
    split
    · rw [List.map_cons]
      exact congrArg (Place.editEntries edit ⟨here, above⟩ :: ·) hbelow
    · exact hbelow
  | text data rest ih =>
    intro above before
    rw [editEntriesIn, Node.editEntries, placesIn_text, placesIn_text]
    exact ih above before
  | remark r rest ih =>
    intro above before
    rw [editEntriesIn, Node.editEntries, placesIn_remark, placesIn_remark]
    exact ih above before

/-- **The entries of an edited document are the edited entries, where they stood.** -/
theorem Document.entries_editEntries (hedit : KeepsNames edit) (doc : Document) :
    (doc.editEntries edit).entries = doc.entries.map (Place.editEntries edit) := by
  rw [entries, entries, places, places, List.filter_cons_of_neg (by simp [Place.isEntry_ofRoot]),
    List.filter_cons_of_neg (by simp [Place.isEntry_ofRoot])]
  cases hhttp : doc.root.isHttp with
  | true =>
    have hnone : (placesIn (Place.ofRoot doc.root).steps [] doc.root.content).filter (·.isEntry)
        = [] :=
      filter_isEntry_eq_nil ⟨⟨[], doc.root⟩, List.mem_cons_self, hhttp⟩
    rw [editEntries, if_pos hhttp, hnone]
    rfl
  | false =>
    have hedited : doc.root.editEntries edit
        = ⟨doc.root.tag, editEntriesIn edit doc.root.content⟩ :=
      Element.editEntries_of_not_isHttp hhttp
    rw [editEntries, if_neg (by simp [hhttp]), hedited, ← entries_editEntriesIn hedit]
    simp only [Place.ofRoot, Place.steps, List.map_cons, List.map_nil, Step.editEntries, hedited]

end Xml

end UrlReservations
