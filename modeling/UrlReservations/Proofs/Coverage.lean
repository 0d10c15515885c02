/-
Nothing of the extension is lost in silence.

A compilation passes over elements of the extension in several places: below another of them,
inside one that belongs to another extension, in an entry it cannot read.  Each time something is
reported.  So if nothing at all is reported, every entry follows the grammar, and moreover nothing
was handed over to another extension: an entry then has only access control entries inside it, and
nothing stands inside those (`holdsOnlyAces_of_mem_entries`).  As every element of the extension
is an entry or inside one (`extensionPlaces_eq`), each has a row of its own.

One element is never dispatched and never reported, which is a root that belongs to the extension.
It has no parent it could be dispatched under, and what it encloses belongs to it
(`compile_of_isHttp_root`).
-/
import UrlReservations.Proofs.Delivery
import UrlReservations.Proofs.Growth
import UrlReservations.Proofs.Places
import UrlReservations.Proofs.Reporting

namespace UrlReservations

open Xml (Element Place Document)

namespace Xml

/-! ### Elements of the extension -/

/-- The places inside the element at a place. -/
def Place.inside (place : Place) : List Place := placesIn place.steps [] place.element.content

/--
The places of the elements of the extension, apart from a root that is one and what that encloses.
-/
def Document.extensionPlaces (doc : Document) : List Place :=
  if doc.root.isHttp then [] else doc.places.filter (·.element.isHttp)

/--
Where nothing of the extension stands around, its elements are the
entries and what stands inside those.
-/
theorem filter_isHttp_placesIn (nodes : List Node) :
    ∀ (above : List Step) (before : List Element), above ≠ [] →
      (∀ step ∈ above, step.element.isHttp = false) →
      (placesIn above before nodes).filter (·.element.isHttp)
        = ((placesIn above before nodes).filter (·.isEntry)).flatMap fun entry =>
            entry :: entry.inside.filter (·.element.isHttp) := by
  induction nodes using Node.forestInduction with
  | nil =>
    intro above before _ _
    simp [placesIn]
  | element tag content rest ihContent ihRest =>
    intro above before hne habove
    let here : Place := ⟨⟨before, ⟨tag, content⟩⟩, above⟩
    have hplaces : placesIn above before (.element tag content :: rest)
        = here :: (here.inside ++ placesIn above (before ++ [here.element]) rest) :=
      placesIn_element ..
    have hentry : here.isEntry = here.element.isHttp := by
      have hall : above.all (fun step => !step.element.isHttp) = true := by
        rw [List.all_eq_true]
        intro step hstep
        rw [habove step hstep]
        rfl
      have hempty : above.isEmpty = false := by simpa using hne
      simp [Place.isEntry, here, hall, hempty]
    rw [hplaces, List.filter_cons, List.filter_cons, hentry, List.filter_append, List.filter_append,
      ihRest above _ hne habove]
    -- an entry keeps what stands inside it, and any other element passes the question on
    cases hhttp : here.element.isHttp with
    | true =>
      have hinside : here.inside.filter (·.isEntry) = [] :=
        filter_isEntry_eq_nil ⟨_, List.mem_cons_self, hhttp⟩
      rw [if_pos rfl, if_pos rfl, hinside, List.nil_append, List.flatMap_cons, List.cons_append]
    | false =>
      have hinside :=
        ihContent here.steps [] (List.cons_ne_nil _ _) (List.forall_mem_cons.mpr ⟨hhttp, habove⟩)
      rw [if_neg Bool.false_ne_true, if_neg Bool.false_ne_true, List.flatMap_append, Place.inside,
        hinside]
  | text data rest ih =>
    intro above before
    rw [placesIn_text]
    exact ih above before
  | remark r rest ih =>
    intro above before
    rw [placesIn_remark]
    exact ih above before

namespace Document

theorem entries_of_isHttp_root {doc : Document} (h : doc.root.isHttp = true) :
    doc.entries = [] := by
  rw [entries, places, List.filter_cons_of_neg (by simp [Place.isEntry_ofRoot])]
  exact filter_isEntry_eq_nil ⟨_, List.mem_cons_self, h⟩

/-- **Every element of the extension is an entry or inside one**, unless the root is one. -/
theorem extensionPlaces_eq (doc : Document) :
    doc.extensionPlaces = doc.entries.flatMap fun entry =>
      entry :: entry.inside.filter (·.element.isHttp) := by
  cases hhttp : doc.root.isHttp with
  | true =>
    rw [extensionPlaces, if_pos hhttp, entries_of_isHttp_root hhttp]
    rfl
  | false =>
    have hsteps : ∀ step ∈ (Place.ofRoot doc.root).steps, step.element.isHttp = false :=
      List.forall_mem_singleton.mpr hhttp
    rw [extensionPlaces, if_neg (by simp [hhttp]), entries, places,
      List.filter_cons_of_neg (by simp [Place.ofRoot, hhttp]),
      List.filter_cons_of_neg (by simp [Place.isEntry_ofRoot])]
    exact filter_isHttp_placesIn doc.root.content _ [] (List.cons_ne_nil _ _) hsteps

end Document

/-! ### Rows of elements -/

/--
The row that an element of the extension stands for: an entry stands for a reservation, and what
is directly inside one for an access control entry.
-/
def Place.row? (read : Element → String → Option String) (place : Place) :
    Option (UrlReservation ⊕ UrlAce) :=
  if place.isEntry then (place.reservation? read).map .inl
  else do
    let entry ← place.parent?
    let reservation ← entry.reservation? read
    let ace ← place.element.aceRow? reservation.id (entry.ambientPrincipal? read)
    return .inr ace

/-- Only access control entries stand inside an element, and nothing inside these. -/
structure Element.HoldsOnlyAces (element : Element) : Prop where
  aces : ∀ child ∈ element.children, UrlReservation.isAce child = true
  childless : ∀ child ∈ element.children, child.children = []

theorem placesIn_of_childless {nodes : List Node} (h : nodes.filterMap Node.element? = [])
    (above : List Step) (before : List Element) : placesIn above before nodes = [] := by
  induction nodes with
  | nil => rfl
  | cons node rest ih =>
    cases node with
    | element tag content => simp at h
    | text data => rw [placesIn_text, ih h]
    | remark r => rw [placesIn_remark, ih h]

/-- Where nothing stands inside the elements of some content, its places are theirs. -/
theorem map_placesIn {β : Type} {above : List Step} (f : Place → β) (g : Element → β)
    (hfg : ∀ before element, f ⟨⟨before, element⟩, above⟩ = g element) {nodes : List Node}
    (h : ∀ child ∈ nodes.filterMap Node.element?, child.children = []) (before : List Element) :
    (placesIn above before nodes).map f = (nodes.filterMap Node.element?).map g := by
  induction nodes generalizing before with
  | nil => rfl
  | cons node rest ih =>
    cases node with
    | element tag content =>
      rw [List.filterMap_cons_some (Node.element?_element tag content), List.forall_mem_cons] at h
      rw [List.filterMap_cons_some (Node.element?_element tag content), placesIn_element,
        placesIn_of_childless h.1, List.nil_append, List.map_cons, List.map_cons, ih h.2, hfg]
    | text data =>
      rw [placesIn_text]
      exact ih h before
    | remark r =>
      rw [placesIn_remark]
      exact ih h before

namespace Place

variable {read : Element → String → Option String} {entry : Place}

theorem filter_isHttp_inside (h : entry.element.HoldsOnlyAces) :
    entry.inside.filter (·.element.isHttp) = entry.inside := by
  have helements : entry.inside.map (·.element) = entry.element.children := by
    have hmap : entry.inside.map (·.element) = entry.element.children.map id :=
      map_placesIn _ id (fun _ _ => rfl) h.childless []
    rwa [List.map_id] at hmap
  rw [List.filter_eq_self]
  intro place hplace
  have hchild : place.element ∈ entry.element.children := by
    rw [← helements]
    exact List.mem_map_of_mem hplace
  exact ((UrlReservation.isAce_iff _).mp (h.aces _ hchild)).1

/-- What stands inside an entry has the rows of its access control entries. -/
theorem map_row?_inside (hentry : entry.isEntry = true) (h : entry.element.HoldsOnlyAces)
    {row : UrlReservation} (hrow : entry.reservation? read = some row) {rows : List UrlAce}
    (hrows : entry.aces? read = some rows) :
    entry.inside.map (row? read) = rows.map (some ∘ .inr) := by
  have hchild : ∀ before element, row? read ⟨⟨before, element⟩, entry.steps⟩
      = (element.aceRow? row.id (entry.ambientPrincipal? read)).map .inr := by
    intro before element
    have hnested : (⟨⟨before, element⟩, entry.steps⟩ : Place).isEntry = false := by
      simp [isEntry, steps, isHttp_of_isEntry hentry]
    have hparent : (⟨⟨before, element⟩, entry.steps⟩ : Place).parent? = some entry := rfl
    rw [row?, hnested, if_neg Bool.false_ne_true, hparent]
    simp only [Option.bind_eq_bind, Option.bind_some, hrow]
    cases element.aceRow? row.id (entry.ambientPrincipal? read) <;> rfl
  have haces : entry.element.aces = entry.element.children := List.filter_eq_self.mpr h.aces
  obtain ⟨other, hother, hmap⟩ := aces?_eq_some_iff.mp hrows
  rw [hrow, Option.some_inj] at hother
  subst hother
  rw [haces] at hmap
  calc entry.inside.map (row? read)
      = entry.element.children.map fun ace =>
        (ace.aceRow? row.id (entry.ambientPrincipal? read)).map .inr :=
        map_placesIn _ _ hchild h.childless []
    _ = (rows.map some).map (Option.map .inr) := by
        rw [← hmap, List.map_map]
        rfl
    _ = rows.map (some ∘ .inr) := by
        rw [List.map_map]
        rfl

end Place

/--
Entries that hold only access control entries have their rows in
order, each entry before those inside it.
-/
theorem exists_rows {read : Element → String → Option String} {entries : List Place}
    (hentries : ∀ entry ∈ entries, entry.isEntry = true ∧ entry.element.HoldsOnlyAces)
    {reservations : List UrlReservation} {rows : List (List UrlAce)}
    (hreservations : entries.map (Place.reservation? read) = reservations.map some)
    (hrows : entries.map (Place.aces? read) = rows.map some) :
    ∃ all : List (UrlReservation ⊕ UrlAce),
      (entries.flatMap fun entry =>
        entry :: entry.inside.filter (·.element.isHttp)).map (Place.row? read) = all.map some ∧
        all.filterMap Sum.getLeft? = reservations ∧ all.filterMap Sum.getRight? = rows.flatten := by
  induction entries generalizing reservations rows with
  | nil =>
    rw [List.map_nil, eq_comm, List.map_eq_nil_iff] at hreservations hrows
    subst hreservations hrows
    exact ⟨[], rfl, rfl, rfl⟩
  | cons entry rest ih =>
    obtain ⟨⟨hentry, hholds⟩, hrest⟩ := List.forall_mem_cons.mp hentries
    obtain ⟨row, others, rfl, hrow, hothers⟩ := List.map_eq_cons_iff.mp hreservations.symm
    obtain ⟨own, owns, rfl, hown, howns⟩ := List.map_eq_cons_iff.mp hrows.symm
    obtain ⟨all, hall, hleft, hright⟩ := ih hrest hothers.symm howns.symm
    have hfirst : entry.row? read = some (.inl row) := by
      rw [Place.row?, if_pos hentry, ← hrow, Option.map_some]
    refine ⟨.inl row :: (own.map .inr ++ all), ?_, ?_, ?_⟩
    · rw [List.flatMap_cons, List.cons_append, List.map_cons, List.map_append, hall, hfirst,
        Place.filter_isHttp_inside hholds, Place.map_row?_inside hentry hholds hrow.symm hown.symm,
        List.map_cons, List.map_append, List.map_map]
    · simp [List.filterMap_append, List.filterMap_map, hleft]
    · have hown : own.filterMap (Sum.getRight? ∘ Sum.inr (α := UrlReservation)) = own :=
        List.filterMap_some
      simp [List.filterMap_cons, List.filterMap_append, List.filterMap_map, hown, hright]

end Xml

/-! ### Silence -/

theorem UrlAce.mem_actions_of_child {ace child : Element} {action : Action}
    (hchild : child ∈ ace.children) (h : action ∈ childActions ace child)
    (reservationId : Identifier) (ambient? : Option String) :
    action ∈ actions ace reservationId ambient? := by
  refine List.mem_append_left _ (List.mem_append_left _ (List.mem_append_right _ ?_))
  exact List.mem_flatMap.mpr ⟨child, hchild, h⟩

namespace UrlReservation

theorem mem_actions_of_child {element child : Element} {owner : Owner} {action : Action}
    (hchild : child ∈ element.children) (h : action ∈ childActions element owner child) :
    action ∈ actions element owner := by
  refine List.mem_append_left _ (List.mem_append_left _ (List.mem_append_right _ ?_))
  exact List.mem_flatMap.mpr ⟨child, hchild, h⟩

/-- A reservation hands over its children of other extensions. -/
theorem forwardElement_mem_actions {element child : Element} (owner : Owner)
    (hchild : child ∈ element.children) (h : child.isHttp = false) :
    Action.forwardElement element child ∈ actions element owner := by
  refine mem_actions_of_child hchild ?_
  simp [childActions, h]

/-- So do its access control entries, if it has no descriptor. -/
theorem forwardElement_mem_actions_of_ace {element ace child : Element} (owner : Owner)
    (hsddl : sddlOf? element = none) (hace : ace ∈ element.aces) (hchild : child ∈ ace.children)
    (h : child.isHttp = false) : Action.forwardElement ace child ∈ actions element owner := by
  obtain ⟨hmem, hhttp, hname⟩ := (mem_aces_iff element ace).mp hace
  have hactions : childActions element owner ace
      = UrlAce.actions ace (idOf element owner) owner.principal? := by
    simp [childActions, hhttp, hname, hsddl, Vocabulary.urlAce]
  refine mem_actions_of_child hmem ?_
  rw [hactions]
  refine UrlAce.mem_actions_of_child hchild ?_ _ _
  simp [UrlAce.childActions, h]

end UrlReservation

section Silence

variable {doc : Document} {platform : Platform}

/-- Whatever is handed over to another extension is reported. -/
theorem forwardElement_notMem_of_silent (h : (compile doc platform).diagnostics = [])
    (parent child : Element) : Action.forwardElement parent child ∉ doc.actions := by
  intro hmem
  have hreports : doc.actions.flatMap Action.reports = [] := by
    rw [← Session.start_perform_diagnostics platform .strict, ← compile, h, List.filter_nil]
  have hforward := List.flatMap_eq_nil_iff.mp hreports _ hmem
  cases hforward

theorem records?_of_silent (h : (compile doc platform).diagnostics = []) :
    (compile doc platform).output.records? = some (compile doc platform).records := by
  have hclean : (compile doc platform).encounteredError = false := by
    rw [compile, ← Session.start_perform_noError_iff, ← compile, Session.NoError, h]
    exact List.forall_mem_nil _
  rw [Session.output, hclean, if_neg Bool.false_ne_true]

/--
**Where nothing is reported, entries hold access control entries only**, and these hold nothing.
-/
theorem holdsOnlyAces_of_mem_entries (h : (compile doc platform).diagnostics = []) {entry : Place}
    (hentry : entry ∈ doc.entries) : entry.element.HoldsOnlyAces := by
  obtain ⟨hentries, -, -⟩ := entriesWellFormed_of_records (records?_of_silent h)
  obtain ⟨hplaced, hgrammar⟩ := hentries entry hentry
  obtain ⟨owner, -, hactions⟩ :=
    Place.actions_of_wellPlaced (Document.isEntry_of_mem_entries hentry) hplaced
  -- A child of another extension would be handed over; what is left are
  -- the children the grammar allows.
  have hforward : ∀ parent child,
      Action.forwardElement parent child ∉ UrlReservation.actions entry.element owner := by
    intro parent child hmem
    rw [← hactions] at hmem
    exact forwardElement_notMem_of_silent h parent child
      (List.mem_flatMap.mpr ⟨entry, hentry, hmem⟩)
  have haces : ∀ child ∈ entry.element.children, UrlReservation.isAce child = true := by
    intro child hchild
    have hhttp : child.isHttp = true := by
      by_contra hforeign
      rw [Bool.not_eq_true] at hforeign
      exact hforward _ _ (UrlReservation.forwardElement_mem_actions owner hchild hforeign)
    exact (UrlReservation.isAce_iff child).mpr ⟨hhttp, hgrammar.children child hchild hhttp⟩
  refine ⟨haces, ?_⟩
  intro ace hchild
  have hace : ace ∈ entry.element.aces := List.mem_filter.mpr ⟨hchild, haces ace hchild⟩
  have hsddl : UrlReservation.sddlOf? entry.element = none := by
    have hown : UrlReservation.sddlOf? entry.element = entry.element.own? "Sddl" :=
      entry.element.authored?_eq_own? hgrammar.nonempty _
    rw [hown, ← Option.not_isSome_iff_eq_none, hgrammar.secured]
    exact List.ne_nil_of_mem hace
  rw [List.eq_nil_iff_forall_not_mem]
  intro child hnested
  exact hforward _ _ (UrlReservation.forwardElement_mem_actions_of_ace owner hsddl hace hnested
    ((hgrammar.aces ace hace).children child hnested))

/-- **A root that belongs to the extension is passed over**, and what it encloses with it. -/
theorem compile_of_isHttp_root (h : doc.root.isHttp = true) :
    compile doc platform = Session.start platform := by
  rw [compile, Document.actions, Document.entries_of_isHttp_root h]
  rfl

end Silence

theorem length_eq_of_filterMap_sum {α β : Type} (l : List (α ⊕ β)) :
    l.length = (l.filterMap Sum.getLeft?).length + (l.filterMap Sum.getRight?).length := by
  induction l with
  | nil => rfl
  | cons a rest ih =>
    cases a <;>
      simp only [List.filterMap_cons, Sum.getLeft?, Sum.getRight?, List.length_cons, ih] <;> omega

/-- A reservation of the extension as the root of a document. -/
def reservationRootDocument : Document :=
  let start : Position := ⟨1, 1⟩
  let own name value : Xml.Attribute := ⟨none, name, value, start⟩
  ⟨[], ⟨⟨some Vocabulary.httpNamespace, "UrlReservation",
    [own "Id" "R", own "Url" "http://+:80/", own "Sddl" "D:"], start⟩, []⟩, []⟩

/--
**What is compiled in silence is compiled completely.**

If nothing is reported, each element of the extension stands for one row, and these rows, in
document order, are the rows of the two tables.  A root that belongs to the extension is not
counted, and neither is what it encloses.
-/
theorem rows_of_silent_compilation {doc : Document} {platform : Platform}
    (h : (compile doc platform).diagnostics = []) :
    (∃ rows : List (UrlReservation ⊕ UrlAce),
      doc.extensionPlaces.map (Place.row? Element.nonEmptyAttribute?) = rows.map some ∧
        rows.filterMap Sum.getLeft? = (compile doc platform).reservations.rows ∧
        rows.filterMap Sum.getRight? = (compile doc platform).aces.rows) ∧
      doc.extensionPlaces.length
        = (compile doc platform).reservations.rows.length
          + (compile doc platform).aces.rows.length := by
  obtain ⟨hreservations, ⟨rows, hrows, hflat⟩, -⟩ :=
    Document.translation?_eq_some_iff.mp (translation?_of_records (records?_of_silent h))
  have hentries : ∀ entry ∈ doc.entries, entry.isEntry = true ∧ entry.element.HoldsOnlyAces :=
    fun entry hentry =>
      ⟨Document.isEntry_of_mem_entries hentry, holdsOnlyAces_of_mem_entries h hentry⟩
  obtain ⟨all, hall, hleft, hright⟩ := Xml.exists_rows hentries hreservations hrows
  rw [← Document.extensionPlaces_eq] at hall
  refine ⟨⟨all, hall, hleft, hright.trans hflat⟩, ?_⟩
  have hlength : doc.extensionPlaces.length = all.length := by
    simpa using congrArg List.length hall
  have hsum := length_eq_of_filterMap_sum all
  rw [hleft, hright, hflat] at hsum
  exact hlength.trans hsum

theorem rows_of_silent_compilation_namesake :
    (compile namesakeDocument .x86).diagnostics = [] ∧ namesakeDocument.extensionPlaces.length = 2 ∧
      namesakeDocument.extensionPlaces.length
        = (compile namesakeDocument .x86).reservations.rows.length
          + (compile namesakeDocument .x86).aces.rows.length :=
  ⟨by decide, by decide, (@rows_of_silent_compilation namesakeDocument .x86 (by decide)).2⟩

/--
With a root that belongs to the extension there may be an element of
the extension, no report and no row.
-/
theorem no_row_for_reservationRoot :
    (compile reservationRootDocument .x86).diagnostics = [] ∧
      reservationRootDocument.places.countP (·.element.isHttp) = 1 ∧
      (compile reservationRootDocument .x86).reservations.rows.length
        + (compile reservationRootDocument .x86).aces.rows.length = 0 := by
  rw [compile_of_isHttp_root (by decide : reservationRootDocument.root.isHttp = true)]
  decide

end UrlReservations
