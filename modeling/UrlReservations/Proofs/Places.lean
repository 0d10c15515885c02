/-
Places of a document, told apart.

The walk that lists the places of a document meets every element once, and where it meets one can
be read off the steps: below the steps it started from comes one more, which has the siblings met
so far before it (`steps_of_mem_placesIn`).  Two places that part at some step part between two
siblings, and of two siblings with one namespace and local name the later has the greater index.
So the labels along the steps, each a local name, a namespace and an index, tell every place from
every other (`nodup_labels`).

A path shows the local names and the indexes and leaves the namespaces out.  As a name holds
neither a slash nor a bracket, nothing else is lost: a path and the namespaces along it give the
labels back (`labels_eq_iff`).  Without the namespaces two places may well have the same path.
-/
import Mathlib.Data.List.Nodup
import Mathlib.Data.String.Basic
import UrlReservations.Proofs.Grammar
import UrlReservations.Proofs.Numerals

namespace UrlReservations.Xml

/-! ### Labels -/

namespace Step

/-- What tells a step from others: its local name, its index, and its namespace. -/
def label (step : Step) : (String × Nat) × Option String :=
  ((step.element.name, step.index), step.element.uri?)

/-- Of two siblings with one namespace and local name, the later has the greater index. -/
theorem index_lt {step later : Step} (hbefore : step.before ++ [step.element] <+: later.before)
    (hname : step.element.name = later.element.name)
    (huri : step.element.uri? = later.element.uri?) : step.index < later.index := by
  -- Both count the siblings of one name, and the later one counts the earlier one, too.
  have hsame : (fun element : Element => element.sameName step.element)
      = fun element => element.sameName later.element := by
    funext element
    rw [Element.sameName, Element.sameName, hname, huri]
  have hself : step.element.sameName step.element = true := by simp [Element.sameName]
  have hlength := (hbefore.filter fun element : Element => element.sameName step.element).length_le
  rw [List.filter_append, List.filter_cons_of_pos (by simpa using hself), List.length_append,
    hsame] at hlength
  simp only [List.filter_nil, List.length_cons, List.length_nil] at hlength
  rw [index, index, hsame]
  omega

theorem label_ne {step later : Step} (hbefore : step.before ++ [step.element] <+: later.before) :
    step.label ≠ later.label := by
  intro hlabel
  rw [label, label, Prod.mk.injEq, Prod.mk.injEq] at hlabel
  obtain ⟨⟨hname, hindex⟩, huri⟩ := hlabel
  have hlt := index_lt hbefore hname huri
  omega

end Step

namespace Place

/-- The labels of the steps from the element up to the root. -/
def labels (place : Place) : List ((String × Nat) × Option String) := place.steps.map Step.label

/-- The namespaces of the elements from the root down to a place. -/
def uris (place : Place) : List (Option String) := place.steps.reverse.map (·.element.uri?)

end Place

/-! ### Where the walk meets an element -/

theorem placesIn_element (above : List Step) (before : List Element) (tag : Tag)
    (content rest : List Node) :
    placesIn above before (.element tag content :: rest)
      = ⟨⟨before, ⟨tag, content⟩⟩, above⟩ ::
          (placesIn (⟨before, ⟨tag, content⟩⟩ :: above) [] content
            ++ placesIn above (before ++ [⟨tag, content⟩]) rest) := by
  rw [placesIn, Node.places]
  rfl

@[simp] theorem placesIn_text (above : List Step) (before : List Element) (data : String)
    (rest : List Node) :
    placesIn above before (.text data :: rest) = placesIn above before rest := by
  rw [placesIn, Node.places, List.nil_append, Node.element?_text, Option.toList_none,
    List.append_nil]

@[simp] theorem placesIn_remark (above : List Step) (before : List Element) (r : Remark)
    (rest : List Node) :
    placesIn above before (.remark r :: rest) = placesIn above before rest := by
  rw [placesIn, Node.places, List.nil_append, Node.element?_remark, Option.toList_none,
    List.append_nil]

/--
A place met in some content stands below the steps around it, at a
step with the siblings met so far before it.
-/
theorem steps_of_mem_placesIn (nodes : List Node) : ∀ (above : List Step) (before : List Element),
    ∀ place ∈ placesIn above before nodes,
      ∃ below step, place.steps = below ++ step :: above ∧ before <+: step.before := by
  induction nodes using Node.forestInduction with
  | nil =>
    intro above before place hplace
    simp [placesIn] at hplace
  | element tag content rest ihContent ihRest =>
    intro above before place hplace
    rw [placesIn_element, List.mem_cons, List.mem_append] at hplace
    rcases hplace with rfl | hplace | hplace
    · exact ⟨[], ⟨before, ⟨tag, content⟩⟩, rfl, List.prefix_rfl⟩
    · obtain ⟨below, step, hsteps, -⟩ :=
        ihContent (⟨before, ⟨tag, content⟩⟩ :: above) [] place hplace
      refine ⟨below ++ [step], ⟨before, ⟨tag, content⟩⟩, ?_, List.prefix_rfl⟩
      rw [hsteps, List.append_assoc]
      rfl
    · obtain ⟨below, step, hsteps, hbefore⟩ := ihRest above _ place hplace
      exact ⟨below, step, hsteps, (List.prefix_append _ _).trans hbefore⟩
  | text data rest ih =>
    intro above before
    rw [placesIn_text]
    exact ih above before
  | remark r rest ih =>
    intro above before
    rw [placesIn_remark]
    exact ih above before

theorem above_suffix_of_mem_placesIn {nodes : List Node} {above : List Step} {before : List Element}
    {place : Place} (h : place ∈ placesIn above before nodes) : above <:+ place.above := by
  obtain ⟨below, step, hsteps, -⟩ := steps_of_mem_placesIn nodes above before place h
  cases below with
  | nil => exact (List.cons.inj hsteps).2 ▸ List.suffix_rfl
  | cons lowest below =>
    rw [(List.cons.inj hsteps).2]
    exact (List.suffix_cons step above).trans (List.suffix_append _ _)

/-- Places that part between two siblings have different labels. -/
theorem labels_ne_of_later {place other : Place} {below below' above : List Step}
    {step later : Step} (hsteps : place.steps = below ++ step :: above)
    (hsteps' : other.steps = below' ++ later :: above)
    (hbefore : step.before ++ [step.element] <+: later.before) : place.labels ≠ other.labels := by
  intro hlabels
  rw [Place.labels, Place.labels, hsteps, hsteps', List.map_append, List.map_append, List.map_cons,
    List.map_cons] at hlabels
  have htail := (List.append_inj' hlabels (by simp)).2
  exact Step.label_ne hbefore (List.cons.inj htail).1

/-- The places met in some content have different labels. -/
theorem nodup_labels_placesIn (nodes : List Node) : ∀ (above : List Step) (before : List Element),
    ((placesIn above before nodes).map Place.labels).Nodup := by
  induction nodes using Node.forestInduction with
  | nil =>
    intro above before
    exact List.nodup_nil
  | element tag content rest ihContent ihRest =>
    intro above before
    let here : Place := ⟨⟨before, ⟨tag, content⟩⟩, above⟩
    rw [placesIn_element, ← List.cons_append, List.map_append, List.map_cons, List.nodup_append,
      List.nodup_cons]
    refine ⟨⟨?_, ihContent here.steps []⟩, ihRest above _, ?_⟩
    · -- an element has fewer steps than whatever it encloses
      intro hmem
      obtain ⟨place, hplace, hlabels⟩ := List.mem_map.mp hmem
      have hlength := (above_suffix_of_mem_placesIn hplace).length_le
      have hsame := congrArg List.length hlabels
      simp only [Place.labels, Place.steps, List.length_map, List.length_cons] at hlength hsame
      omega
    · intro first hfirst second hsecond hsame
      rw [← List.map_cons] at hfirst
      obtain ⟨place, hplace, rfl⟩ := List.mem_map.mp hfirst
      obtain ⟨other, hother, rfl⟩ := List.mem_map.mp hsecond
      obtain ⟨below', later, hsteps', hbefore⟩ := steps_of_mem_placesIn rest above _ other hother
      obtain ⟨below, hsteps⟩ : ∃ below, place.steps = below ++ here.toStep :: above := by
        rcases List.mem_cons.mp hplace with rfl | hplace
        · exact ⟨[], rfl⟩
        · obtain ⟨below, step, hsteps, -⟩ :=
            steps_of_mem_placesIn content here.steps [] place hplace
          exact ⟨below ++ [step], by rw [hsteps, List.append_assoc]; rfl⟩
      exact labels_ne_of_later hsteps hsteps' hbefore hsame
  | text data rest ih =>
    intro above before
    rw [placesIn_text]
    exact ih above before
  | remark r rest ih =>
    intro above before
    rw [placesIn_remark]
    exact ih above before

/-- A document as content of its own: its places are those of its root element among no siblings. -/
theorem Document.places_eq (doc : Document) :
    doc.places = placesIn [] [] [.element doc.root.tag doc.root.content] := by
  rw [placesIn_element, placesIn, List.append_nil]
  rfl

/-- **The labels along the steps tell every place of a document from every other.** -/
theorem Document.nodup_labels (doc : Document) : (doc.places.map Place.labels).Nodup := by
  rw [places_eq]
  exact nodup_labels_placesIn _ [] []

/-- So they give the number of a place in document order. -/
theorem Document.labels_eq_iff {doc : Document} {i j : Nat} {place other : Place}
    (hplace : doc.places[i]? = some place) (hother : doc.places[j]? = some other) :
    place.labels = other.labels ↔ i = j := by
  refine ⟨?_, ?_⟩
  · intro hlabels
    obtain ⟨hi, -⟩ := List.getElem?_eq_some_iff.mp hplace
    have hsame : (doc.places.map Place.labels)[i]? = (doc.places.map Place.labels)[j]? := by
      rw [List.getElem?_map, List.getElem?_map, hplace, hother, Option.map_some, Option.map_some,
        hlabels]
    exact (List.getElem?_inj (by rwa [List.length_map]) doc.nodup_labels).mp hsame
  · rintro rfl
    rw [Option.some.inj (hplace.symm.trans hother)]

/-! ### What stands around a place -/

theorem mem_enclosing_of_mem_placesIn (nodes : List Node) :
    ∀ (above : List Step) (before : List Element),
      ∀ place ∈ placesIn above before nodes, ∀ around ∈ place.enclosing,
        around ∈ placesIn above before nodes ∨ around ∈ Place.enclosing.go above := by
  induction nodes using Node.forestInduction with
  | nil =>
    intro above before place hplace
    simp [placesIn] at hplace
  | element tag content rest ihContent ihRest =>
    intro above before place hplace around haround
    rw [placesIn_element, List.mem_cons, List.mem_append] at hplace ⊢
    rcases hplace with rfl | hplace | hplace
    · exact .inr haround
    · rcases ihContent _ [] place hplace around haround with hinside | hinside
      · exact .inl (.inr (.inl hinside))
      · -- what encloses the content is the element itself and what encloses that
        rcases List.mem_cons.mp hinside with rfl | habove
        · exact .inl (.inl rfl)
        · exact .inr habove
    · rcases ihRest above _ place hplace around haround with hinside | habove
      · exact .inl (.inr (.inr hinside))
      · exact .inr habove
  | text data rest ih =>
    intro above before
    rw [placesIn_text]
    exact ih above before
  | remark r rest ih =>
    intro above before
    rw [placesIn_remark]
    exact ih above before

/-- What encloses a place of a document has a place in it. -/
theorem Document.mem_places_of_mem_enclosing {doc : Document} {place around : Place}
    (h : place ∈ doc.places) (haround : around ∈ place.enclosing) : around ∈ doc.places := by
  rw [places_eq] at h ⊢
  rcases mem_enclosing_of_mem_placesIn _ [] [] place h around haround with h | h
  · exact h
  · simp [Place.enclosing.go] at h

theorem Place.exists_of_mem_steps {place : Place} {step : Step} (h : step ∈ place.steps) :
    ∃ around ∈ place :: place.enclosing, around.toStep = step := by
  have hgo : ∀ above : List Step, (enclosing.go above).map (·.toStep) = above := by
    intro above
    induction above with
    | nil => rfl
    | cons step rest ih => rw [enclosing.go, List.map_cons, ih]
  have hsteps : (place :: place.enclosing).map (·.toStep) = place.steps := by
    rw [List.map_cons, enclosing, hgo, steps]
  rw [← hsteps] at h
  exact List.mem_map.mp h

/-! ### Entries among places -/

theorem Place.isEntry_ofRoot (root : Element) : (ofRoot root).isEntry = false := by
  simp [isEntry, ofRoot]

/-- Below an element of the extension there are no entries. -/
theorem isEntry_of_mem_placesIn {nodes : List Node} {above : List Step} {before : List Element}
    (habove : ∃ step ∈ above, step.element.isHttp = true) {place : Place}
    (hplace : place ∈ placesIn above before nodes) : place.isEntry = false := by
  obtain ⟨step, hstep, hhttp⟩ := habove
  have hmem : step ∈ place.above := (above_suffix_of_mem_placesIn hplace).subset hstep
  have hall : place.above.all (fun step => !step.element.isHttp) = false := by
    rw [List.all_eq_false]
    exact ⟨step, hmem, by simp [hhttp]⟩
  rw [Place.isEntry, hall, Bool.and_false]

theorem filter_isEntry_eq_nil {nodes : List Node} {above : List Step} {before : List Element}
    (h : ∃ step ∈ above, step.element.isHttp = true) :
    (placesIn above before nodes).filter (·.isEntry) = [] := by
  rw [List.filter_eq_nil_iff]
  intro place hplace
  simp [isEntry_of_mem_placesIn h hplace]

/-! ### Paths -/

/-- A name that holds none of the characters that divide a path. -/
def PlainName (name : String) : Prop := '/' ∉ name.toList ∧ '[' ∉ name.toList

/-- The names of all elements of a document are plain. -/
def Document.PlainNames (doc : Document) : Prop :=
  ∀ place ∈ doc.places, PlainName place.element.name

instance (name : String) : Decidable (PlainName name) :=
  inferInstanceAs (Decidable ('/' ∉ name.toList ∧ '[' ∉ name.toList))

instance (doc : Document) : Decidable doc.PlainNames :=
  inferInstanceAs (Decidable (∀ place ∈ doc.places, PlainName place.element.name))

theorem Document.PlainNames.of_mem_steps {doc : Document} (h : doc.PlainNames) {place : Place}
    (hplace : place ∈ doc.places) : ∀ step ∈ place.steps, PlainName step.element.name := by
  intro step hstep
  obtain ⟨around, haround, rfl⟩ := Place.exists_of_mem_steps hstep
  rcases List.mem_cons.mp haround with rfl | haround
  · exact h around hplace
  · exact h around (mem_places_of_mem_enclosing hplace haround)

namespace Step

/-- A segment with a plain name holds no slash. -/
theorem slash_notMem_segment {step : Step} (h : PlainName step.element.name) :
    '/' ∉ step.segment.toList := by
  intro hmem
  simp only [segment, String.toList_append, List.mem_append] at hmem
  rcases hmem with ((hmem | hmem) | hmem) | hmem
  · exact h.1 hmem
  · exact absurd hmem (by decide)
  · rw [Numeral.toList_toString] at hmem
    exact absurd (Numeral.isDigit_of_mem_toDigits hmem) (by decide)
  · exact absurd hmem (by decide)

/-- A segment with a plain name gives the name and the index back. -/
theorem segment_inj {step step' : Step} (h : PlainName step.element.name)
    (hsegment : step.segment = step'.segment) :
    (step.element.name, step.index) = (step'.element.name, step'.index) := by
  -- A segment holds one opening bracket, none in the name and none behind
  -- it, so it can be cut there.
  have hdigits : ∀ step : Step, '[' ∉ (toString step.index ++ "]").toList := by
    intro step hmem
    rw [String.toList_append, List.mem_append] at hmem
    rcases hmem with hmem | hmem
    · rw [Numeral.toList_toString] at hmem
      exact absurd (Numeral.isDigit_of_mem_toDigits hmem) (by decide)
    · exact absurd hmem (by decide)
  have hchars : step.element.name.toList ++ '[' :: (toString step.index ++ "]").toList
      = step'.element.name.toList ++ '[' :: (toString step'.index ++ "]").toList := by
    have hlists := congrArg String.toList hsegment
    simpa [segment] using hlists
  obtain ⟨hname, -, hindex⟩ := (List.append_cons_inj_of_notMem h.2 (hdigits step)).mp hchars
  have hindex : toString step.index = toString step'.index :=
    (String.append_left_inj "]").mp (String.toList_inj.mp hindex)
  rw [String.toList_inj.mp hname, Numeral.toString_inj hindex]

/-- Steps with plain names and the same segments and namespaces have the same labels. -/
theorem map_label_eq {steps steps' : List Step} (h : ∀ step ∈ steps, PlainName step.element.name)
    (hsegments : steps.map segment = steps'.map segment)
    (huris : steps.map (·.element.uri?) = steps'.map (·.element.uri?)) :
    steps.map label = steps'.map label := by
  induction steps generalizing steps' with
  | nil =>
    cases steps' with
    | nil => rfl
    | cons step' rest' => simp at hsegments
  | cons step rest ih =>
    cases steps' with
    | nil => simp at hsegments
    | cons step' rest' =>
      rw [List.map_cons, List.map_cons, List.cons.injEq] at hsegments huris
      have hhead : step.label = step'.label :=
        Prod.ext (segment_inj (h step List.mem_cons_self) hsegments.1) huris.1
      rw [List.map_cons, List.map_cons, hhead,
        ih (fun step hstep => h step (List.mem_cons_of_mem _ hstep)) hsegments.2 huris.2]

end Step

/--
Lists written one after another, each after a divider, are the lists
divided by it, an empty one in front.
-/
theorem intercalate_cons_eq {α : Type} (divider : α) (first : List α) (lists : List (List α)) :
    [divider].intercalate (first :: lists) = first ++ lists.flatMap (divider :: ·) := by
  induction lists generalizing first with
  | nil => simp
  | cons second rest ih =>
    rw [List.intercalate_cons_cons, ih, List.flatMap_cons, List.append_assoc]
    rfl

namespace Place

theorem toList_path (place : Place) :
    place.path.toList = ['/'].intercalate ([] :: place.steps.reverse.map (·.segment.toList)) := by
  rw [intercalate_cons_eq, List.nil_append, path, String.toList_join, List.flatMap_map,
    List.flatMap_map]
  refine List.flatMap_congr fun step _ => ?_
  rw [String.toList_append]
  rfl

/-- A path with plain names gives its segments back, from the root down. -/
theorem splitOn_path {place : Place} (h : ∀ step ∈ place.steps, PlainName step.element.name) :
    place.path.toList.splitOn '/' = [] :: place.steps.reverse.map (·.segment.toList) := by
  rw [toList_path]
  refine List.splitOn_intercalate '/' ?_ (List.cons_ne_nil _ _)
  intro segment hsegment hslash
  rcases List.mem_cons.mp hsegment with rfl | hsegment
  · simp at hslash
  · obtain ⟨step, hstep, rfl⟩ := List.mem_map.mp hsegment
    exact Step.slash_notMem_segment (h step (List.mem_reverse.mp hstep)) hslash

theorem path_eq_join_labels (place : Place) :
    place.path = String.join (place.labels.reverse.map fun label =>
      "/" ++ (label.1.1 ++ "[" ++ toString label.1.2 ++ "]")) := by
  rw [path, labels, ← List.map_reverse, List.map_map]
  rfl

theorem uris_eq_map_labels (place : Place) : place.uris = place.labels.reverse.map (·.2) := by
  rw [uris, labels, ← List.map_reverse, List.map_map]
  rfl

/-- **With plain names, a path and the namespaces along it say exactly what the labels say.** -/
theorem labels_eq_iff {place other : Place} (h : ∀ step ∈ place.steps, PlainName step.element.name)
    (h' : ∀ step ∈ other.steps, PlainName step.element.name) :
    place.labels = other.labels ↔ place.path = other.path ∧ place.uris = other.uris := by
  refine ⟨fun hlabels => ⟨?_, ?_⟩, ?_⟩
  · rw [path_eq_join_labels, path_eq_join_labels, hlabels]
  · rw [uris_eq_map_labels, uris_eq_map_labels, hlabels]
  · -- slashes stand between segments only, so splitting there gives these back
    rintro ⟨hpath, huris⟩
    have hsplit := congrArg (fun path : String => path.toList.splitOn '/') hpath
    simp only [splitOn_path h, splitOn_path h'] at hsplit
    have hsegments : place.steps.map Step.segment = other.steps.map Step.segment := by
      refine (List.map_injective_iff.mpr fun _ _ => String.toList_inj.mp) ?_
      simpa [Function.comp_def] using hsplit
    have huris : place.steps.map (·.element.uri?) = other.steps.map (·.element.uri?) := by
      simpa [uris] using huris
    exact Step.map_label_eq h hsegments huris

end Place

/-! ### What a path identifies -/

/--
**A path and the namespaces along it identify an element.**

Elements are told apart by their numbers in document order, so elements that look alike are
still two.  Names are plain in every document that was read (`Document.plainNames_of_read`).
-/
theorem path_and_uris_identify {doc : Document} (hnames : doc.PlainNames) {i j : Nat}
    {place other : Place} (hplace : doc.places[i]? = some place)
    (hother : doc.places[j]? = some other) :
    place.path = other.path ∧ place.uris = other.uris ↔ i = j := by
  have hmem := List.mem_of_getElem? hplace
  have hmem' := List.mem_of_getElem? hother
  rw [← Place.labels_eq_iff (hnames.of_mem_steps hmem) (hnames.of_mem_steps hmem'),
    Document.labels_eq_iff hplace hother]

/--
Three elements of one name in a package, of which the last two have the namespace of the schema.
-/
def namesakes : Document :=
  let component (uri? : Option String) : Node := .element ⟨uri?, "Component", [], ⟨1, 1⟩⟩ []
  let core := some Vocabulary.coreNamespace
  ⟨[], ⟨⟨none, "Package", [], ⟨1, 1⟩⟩, [component none, component core, component core]⟩, []⟩

/-- The first two have the same path, so the namespaces along it differ. -/
theorem path_and_uris_identify_namesakes :
    ∃ first second third, namesakes.PlainNames ∧
      (namesakes.places[1]? = some first ∧ namesakes.places[2]? = some second ∧
        namesakes.places[3]? = some third) ∧
      (first.path = "/Package[1]/Component[1]" ∧ second.path = first.path ∧
        third.path = "/Package[1]/Component[2]") ∧
      (first.path = second.path ∧ first.uris = second.uris ↔ 1 = 2) ∧
      (second.path = third.path ∧ second.uris = third.uris ↔ 2 = 3) := by
  have hnames : namesakes.PlainNames := by decide
  refine ⟨_, _, _, hnames, ⟨rfl, rfl, rfl⟩, by decide, ?_, ?_⟩
  · exact path_and_uris_identify hnames rfl rfl
  · exact path_and_uris_identify hnames rfl rfl

end UrlReservations.Xml
