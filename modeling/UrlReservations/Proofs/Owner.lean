/-
Whom an entry belongs to.

What the compiler knows about the surroundings of an entry passes through a context of
values under keys: written where the parent stands, read by the kind of parent.  Here the
context is taken out of the middle.  An entry is read on behalf of an owner exactly if it is
well placed, and the owner is then the one the translation names: the component nearest
around it and the account of the service directly around it.  An entry that is not well
placed asks for a single error and nothing else.
-/
import UrlReservations.Proofs.Authoring

namespace UrlReservations

open Xml (Element Place)

/-! ### Looking up a context -/

theorem lookup_filter_ne {α : Type} {key other : String} (h : other ≠ key)
    (entries : List (String × α)) :
    (entries.filter (·.1 ≠ key)).lookup other = entries.lookup other := by
  induction entries with
  | nil => rfl
  | cons entry rest ih =>
    obtain ⟨k, value⟩ := entry
    by_cases hk : k = key
    · have hother : (other == k) = false := by simpa [hk] using h
      rw [List.filter_cons_of_neg (by simpa using hk), ih, List.lookup_cons, hother]
    · rw [List.filter_cons_of_pos (by simpa using hk), List.lookup_cons, List.lookup_cons, ih]

namespace ParentContext

theorem entry?_insert_self (context : ParentContext) (key value : String) :
    ParentContext.entry? (context.insert key value) key = some value :=
  List.lookup_cons_self

theorem entry?_insert_ne (context : ParentContext) {key other : String} (h : other ≠ key)
    (value : String) :
    ParentContext.entry? (context.insert key value) other = context.entry? other := by
  have hother : (other == key) = false := by simpa using h
  rw [ entry?, insert, List.lookup_cons, hother]
  exact lookup_filter_ne h context.entries

theorem get?_insert_self (context : ParentContext) (key : String) {value : String}
    (h : value ≠ "") : (context.insert key value).get? key = some value := by
  rw [get?, entry?_insert_self]
  simp [Option.filter_some, h]

theorem get?_insert_ne (context : ParentContext) {key other : String} (h : other ≠ key)
    (value : String) : (context.insert key value).get? other = context.get? other := by
  rw [get?, entry?_insert_ne context h, get?]

@[simp] theorem get?_empty (key : String) : empty.get? key = none := rfl

/-- A value that comes last, if there is one, says nothing about another key. -/
theorem get?_ofList_append (pairs : List (String × String)) (value? : Option String)
    {key other : String} (h : other ≠ key) :
    (ofList (pairs ++ value?.toList.map (key, ·))).get? other = (ofList pairs).get? other := by
  rw [ofList, List.foldl_append]
  cases value? with
  | none => rfl
  | some value => exact get?_insert_ne _ h value

end ParentContext

namespace Xml.Place

/-! ### The component and the service around a place -/

theorem nonEmptyAttribute?_ne_empty {element : Element} {name value : String}
    (h : element.nonEmptyAttribute? name = some value) : value ≠ "" := by
  have hvalue := (Option.filter_eq_some_iff.mp h).2
  simpa using hvalue

theorem componentId_eq (component : Place) :
    component.componentId
      = (component.element.nonEmptyAttribute? "Id").getD
        (Identifier.derive .component [some component.path]).text := by
  rw [componentId]
  cases component.element.nonEmptyAttribute? "Id" <;> rfl

theorem componentId_ne_empty (component : Place) : component.componentId ≠ "" := by
  rw [componentId_eq]
  cases h : component.element.nonEmptyAttribute? "Id" with
  | some id => exact nonEmptyAttribute?_ne_empty h
  | none =>
    intro hempty
    have hlist := congrArg String.toList hempty
    simp [Identifier.derive, Identifier.Kind.mark] at hlist

private theorem nearest?_go_eq (p : Element → Bool) (steps : List Step) :
    nearest?.go p steps = (enclosing.go steps).find? (p ·.element) := by
  induction steps with
  | nil => rfl
  | cons step above ih =>
    rw [nearest?.go, enclosing.go, List.find?_cons]
    by_cases hp : p step.element = true
    · simp [hp]
    · simp [hp, ih]

/--
The nearest place with a property is the place itself, or the first with it among those around it.
-/
theorem nearest?_eq (p : Element → Bool) (place : Place) :
    place.nearest? p = (place :: place.enclosing).find? (p ·.element) := by
  rw [nearest?, List.find?_cons, enclosing, nearest?_go_eq]
  by_cases hp : p place.element = true <;> simp [hp]

theorem enclosing_eq_of_parent {entry parent : Place} (h : entry.parent? = some parent) :
    entry.enclosing = parent :: parent.enclosing := by
  unfold parent? at h
  split at h
  · simp at h
  · rename_i step above habove
    rw [Option.some.injEq] at h
    subst h
    rw [enclosing, habove, enclosing.go, enclosing]

theorem component?_of_parent {entry parent : Place} (h : entry.parent? = some parent) :
    parent.component? = entry.owningComponent? := by
  rw [component?, nearest?_eq, owningComponent?, enclosing_eq_of_parent h]
  rfl

/-- What the context of a parent knows about the component: its identifier, under both keys. -/
theorem get?_componentId (parent : Place) {key : String}
    (hkey : key = Vocabulary.componentIdKey ∨ key = Vocabulary.serviceInstallComponentIdKey) :
    parent.context.get? key = parent.component?.map componentId := by
  have hname : key ≠ Vocabulary.serviceInstallNameKey := by
    rcases hkey with rfl | rfl <;> decide
  rw [context, ParentContext.get?_ofList_append _ _ hname]
  cases parent.component? with
  | none => rfl
  | some component =>
    have hne := component.componentId_ne_empty
    rcases hkey with rfl | rfl
    · exact ParentContext.get?_insert_self _ _ hne
    · rw [ParentContext.ofList, List.foldl_cons, List.foldl_cons, List.foldl_nil,
        ParentContext.get?_insert_ne _ (by decide), ParentContext.get?_insert_self _ _ hne]
      rfl

/-- What it knows about the service: its name, if the parent is a service with a name. -/
theorem get?_serviceName (parent : Place) :
    parent.context.get? Vocabulary.serviceInstallNameKey = parent.serviceName? := by
  rw [context, ParentContext.ofList, List.foldl_append]
  cases hname : parent.serviceName? with
  | none =>
    cases parent.component? with
    | none => rfl
    | some component =>
      show (((ParentContext.empty.insert _ _).insert _ _).get? _) = none
      rw [ParentContext.get?_insert_ne _ (by decide), ParentContext.get?_insert_ne _ (by decide),
        ParentContext.get?_empty]
  | some name =>
    have hne : name ≠ "" := by
      unfold serviceName? at hname
      split at hname
      · exact nonEmptyAttribute?_ne_empty hname
      · simp at hname
    exact ParentContext.get?_insert_self _ _ hne

/-! ### Dispatching an entry -/

theorem owningComponentId?_eq {entry parent : Place} (h : entry.parent? = some parent) :
    entry.owningComponentId? Element.nonEmptyAttribute? = parent.component?.map componentId := by
  rw [owningComponentId?, component?_of_parent h]
  cases entry.owningComponent? with
  | none => rfl
  | some component => rw [Option.map_some, Option.map_some, componentId_eq]

theorem ambientPrincipal?_eq {entry parent : Place} (h : entry.parent? = some parent) :
    entry.ambientPrincipal? Element.nonEmptyAttribute?
      = parent.serviceName?.map (Vocabulary.serviceAccountDomain ++ ·) := by
  rw [ambientPrincipal?, h, serviceName?, Vocabulary.serviceInstall,
    Vocabulary.serviceAccountDomain]
  by_cases hservice : parent.element.isCoreNamed "ServiceInstall" = true <;>
    simp [Option.filter_some, hservice]

/-- The owner that the translation names for an entry. -/
def owner? (entry : Place) : Option Owner :=
  (entry.owningComponentId? Element.nonEmptyAttribute?).map fun componentId =>
    ⟨componentId, entry.ambientPrincipal? Element.nonEmptyAttribute?⟩

theorem owner?_isSome_of_wellPlaced {entry : Place} (h : entry.WellPlaced) :
    entry.owner?.isSome = true := by
  obtain ⟨place, hplace, hcore⟩ := h.component
  rw [owner?, Option.isSome_map, owningComponentId?, Option.isSome_map, owningComponent?,
    List.find?_isSome]
  exact ⟨place, hplace, hcore⟩

end Xml.Place

namespace Registry

theorem parent?_http (name : String) :
    http.parent? name = if name = "ServiceInstall" then some Owner.ofServiceInstall
      else if name = "Component" then some Owner.ofComponent else none := by
  show List.lookup name [("ServiceInstall", Owner.ofServiceInstall),
    ("Component", Owner.ofComponent)] = _
  simp only [List.lookup_cons, List.lookup_nil]
  by_cases hservice : name = "ServiceInstall"
  · rw [if_pos hservice, beq_iff_eq.mpr hservice]
  · rw [if_neg hservice, beq_false_of_ne hservice]
    by_cases hcomponent : name = "Component"
    · rw [if_pos hcomponent, beq_iff_eq.mpr hcomponent]
    · rw [if_neg hcomponent, beq_false_of_ne hcomponent]

theorem handler?_http (name : String) :
    http.handler? name = if name = "UrlReservation" then some UrlReservation.actions else none := by
  show List.lookup name [("UrlReservation", UrlReservation.actions)] = _
  simp only [List.lookup_cons, List.lookup_nil]
  by_cases hname : name = "UrlReservation"
  · rw [if_pos hname, beq_iff_eq.mpr hname]
  · rw [if_neg hname, beq_false_of_ne hname]

variable {parent element : Element} (context : ParentContext)

theorem dispatch_http_of_parent {resolve : ParentHandler} (hhttp : element.isHttp = true)
    (hname : element.name = "UrlReservation") (hcore : parent.isCore = true)
    (hresolve : http.parent? parent.name = some resolve) :
    http.dispatch parent element context = match resolve context with
      | .ok owner => UrlReservation.actions element owner
      | .error message => [.report ⟨parent.pos, message⟩] := by
  rw [dispatch, RegistryOf.route, hhttp, hcore, hresolve, handler?_http, if_pos hname]
  cases howner : resolve context <;> simp [howner]

theorem dispatch_http_of_unexpected (hhttp : element.isHttp = true)
    (h : ¬ (element.name = "UrlReservation" ∧
      (parent.isCoreNamed "Component" = true ∨ parent.isCoreNamed "ServiceInstall" = true))) :
    http.dispatch parent element context
      = [.report ⟨element.pos, .unexpectedElement parent.name element.name⟩] := by
  rw [dispatch, RegistryOf.route, hhttp]
  by_cases hcore : parent.isCore = true
  · rw [hcore, parent?_http, handler?_http]
    by_cases hname : element.name = "UrlReservation"
    · have hservice : parent.name ≠ "ServiceInstall" :=
        fun hc => h ⟨hname, .inr (by simp [Element.isCoreNamed, hcore, hc])⟩
      have hcomponent : parent.name ≠ "Component" :=
        fun hc => h ⟨hname, .inl (by simp [Element.isCoreNamed, hcore, hc])⟩
      rw [if_neg hservice, if_neg hcomponent]
      rfl
    · rw [if_neg hname]
      split <;> simp_all
  · rw [Bool.not_eq_true] at hcore
    rw [hcore]
    rfl

end Registry

namespace Owner

theorem ofComponent_eq (context : ParentContext) :
    ofComponent context = match context.get? Vocabulary.componentIdKey with
      | some id => .ok ⟨id, none⟩
      | none => .error (.missingContextValue Vocabulary.component Vocabulary.componentIdKey) := by
  rw [ofComponent, ParentContext.require]
  cases context.get? Vocabulary.componentIdKey <;> rfl

theorem ofServiceInstall_eq (context : ParentContext) :
    ofServiceInstall context = match context.get? Vocabulary.serviceInstallComponentIdKey with
      | some id =>
        .ok ⟨id,
          (context.get? Vocabulary.serviceInstallNameKey).map
            (Vocabulary.serviceAccountDomain ++ ·)⟩
      | none =>
        .error (.missingContextValue Vocabulary.serviceInstall
          Vocabulary.serviceInstallComponentIdKey) := by
  rw [ofServiceInstall, ParentContext.require]
  cases context.get? Vocabulary.serviceInstallComponentIdKey <;> rfl

end Owner

/-- What a parent of the extension says when it cannot name an owner is that a value is missing. -/
theorem Registry.missing_of_resolve_http {name : String} {resolve : ParentHandler}
    {context : ParentContext} {message : Message} (hresolve : http.parent? name = some resolve)
    (h : resolve context = .error message) :
    ∃ element key, message = .missingContextValue element key := by
  rw [parent?_http] at hresolve
  split at hresolve
  · rw [← Option.some.inj hresolve, Owner.ofServiceInstall_eq] at h
    split at h
    · cases h
    · exact ⟨_, _, (Except.error.inj h).symm⟩
  · split at hresolve
    · rw [← Option.some.inj hresolve, Owner.ofComponent_eq] at h
      split at h
      · cases h
      · exact ⟨_, _, (Except.error.inj h).symm⟩
    · cases hresolve

namespace Xml.Place

theorem parent?_of_isEntry {entry : Place} (h : entry.isEntry = true) :
    ∃ parent, entry.parent? = some parent := by
  unfold isEntry at h
  unfold parent?
  cases habove : entry.above with
  | nil => simp [habove] at h
  | cons step above => exact ⟨⟨step, above⟩, rfl⟩

theorem isHttp_of_isEntry {entry : Place} (h : entry.isEntry = true) :
    entry.element.isHttp = true := by
  simp only [isEntry, Bool.and_eq_true] at h
  exact h.1.1

/--
Under a component or a service, an entry is read on behalf of its owner, or its parent lacks one.
-/
theorem actions_of_parent {entry parent : Place} (hentry : entry.isEntry = true)
    (hparent : entry.parent? = some parent) (hname : entry.element.name = "UrlReservation")
    (hcore : parent.element.isCoreNamed "Component" = true ∨
      parent.element.isCoreNamed "ServiceInstall" = true) :
    match entry.owner? with
    | some owner => entry.actions = UrlReservation.actions entry.element owner
    | none =>
      ∃ message, message.isError = true ∧
        entry.actions = [.report ⟨parent.element.pos, message⟩] := by
  have hhttp := isHttp_of_isEntry hentry
  rw [owner?, owningComponentId?_eq hparent, ambientPrincipal?_eq hparent, actions, hparent]
  rcases hcore with hcore | hcore <;>
    obtain ⟨hcore, hparentName⟩ := Bool.and_eq_true_iff.mp hcore <;>
    rw [decide_eq_true_eq] at hparentName
  · have hresolve : Registry.http.parent? parent.element.name = some Owner.ofComponent := by
      rw [Registry.parent?_http, hparentName]
      rfl
    have hnoService : parent.serviceName? = none := by
      simp [serviceName?, Element.isCoreNamed, Vocabulary.serviceInstall, hparentName]
    simp only [Registry.dispatch_http_of_parent parent.context hhttp hname hcore hresolve,
      Owner.ofComponent_eq, get?_componentId parent (.inl rfl), hnoService]
    cases parent.component? with
    | none => exact ⟨_, rfl, rfl⟩
    | some component => rfl
  · have hresolve : Registry.http.parent? parent.element.name = some Owner.ofServiceInstall := by
      rw [Registry.parent?_http, hparentName]
      rfl
    simp only [Registry.dispatch_http_of_parent parent.context hhttp hname hcore hresolve,
      Owner.ofServiceInstall_eq, get?_componentId parent (.inr rfl), get?_serviceName]
    cases parent.component? with
    | none => exact ⟨_, rfl, rfl⟩
    | some component => rfl

/-- **A well-placed entry is read on behalf of its owner.** -/
theorem actions_of_wellPlaced {entry : Place} (hentry : entry.isEntry = true)
    (h : entry.WellPlaced) :
    ∃ owner, entry.owner? = some owner ∧
      entry.actions = UrlReservation.actions entry.element owner := by
  obtain ⟨owner, howner⟩ := Option.isSome_iff_exists.mp (owner?_isSome_of_wellPlaced h)
  obtain ⟨parent, hparent, hcore⟩ := h.parent
  have hactions := actions_of_parent hentry hparent h.name hcore
  rw [howner] at hactions
  exact ⟨owner, howner, hactions⟩

/-- **An entry that is not well placed asks for one error and nothing else.** -/
theorem actions_of_not_wellPlaced {entry : Place} (hentry : entry.isEntry = true)
    (h : ¬ entry.WellPlaced) :
    ∃ pos message, message.isError = true ∧ entry.actions = [.report ⟨pos, message⟩] := by
  obtain ⟨parent, hparent⟩ := parent?_of_isEntry hentry
  by_cases hplace : entry.element.name = "UrlReservation" ∧
      (parent.element.isCoreNamed "Component" = true ∨
        parent.element.isCoreNamed "ServiceInstall" = true)
  · obtain ⟨hname, hcore⟩ := hplace
    have hactions := actions_of_parent hentry hparent hname hcore
    cases howner : entry.owner? with
    | none =>
      rw [howner] at hactions
      obtain ⟨message, herror, hreport⟩ := hactions
      exact ⟨_, message, herror, hreport⟩
    | some owner =>
      -- an owner needs a component around the entry, which would make it well placed
      have hsome : entry.owner?.isSome = true := by rw [howner]; rfl
      rw [owner?, Option.isSome_map, owningComponentId?, Option.isSome_map, owningComponent?,
        List.find?_isSome] at hsome
      exact absurd ⟨hname, ⟨parent, hparent, hcore⟩, hsome⟩ h
  · refine ⟨entry.element.pos, .unexpectedElement parent.element.name entry.element.name, rfl, ?_⟩
    rw [actions, hparent]
    exact Registry.dispatch_http_of_unexpected parent.context (isHttp_of_isEntry hentry) hplace

end Xml.Place

end UrlReservations
