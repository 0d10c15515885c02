/-
Which values an extension element can see.

A context holds whatever the elements around an extension element have put there, under any keys,
and it is handed over as a whole.  What comes of it is little: each kind of parent looks up keys
of its own (`keysRead`), finds an owner or misses one, and from there on only the owner is known,
in the rows, in what their identifiers are derived from, and in the default principal of every
entry.  So two contexts with the same values under those keys are not told apart (`AgreeOn`),
however they were built and whatever else they hold; the name of a service does not reach what is
read under a component.

Values are looked up by `get?`, which makes no difference between an empty
value and none, so there is none in what a session is left with either.
-/
import UrlReservations.Proofs.Refusals

namespace UrlReservations

open Xml (Element)

namespace ParentContext

variable {keys : List String} {a b : ParentContext}

/-- Two contexts have the same values under some keys; an empty value counts as none. -/
def AgreeOn (keys : List String) (a b : ParentContext) : Prop :=
  ∀ key ∈ keys, a.get? key = b.get? key

/-- Forget the value of a key. -/
def erase (context : ParentContext) (key : String) : ParentContext :=
  ⟨context.entries.filter (·.1 ≠ key)⟩

theorem get?_erase_self (context : ParentContext) (key : String) :
    (context.erase key).get? key = none := by
  have hlookup : (context.entries.filter (·.1 ≠ key)).lookup key = none := by
    rw [List.lookup_eq_none_iff]
    intro entry hentry
    have hne : entry.1 ≠ key := by simpa using (List.mem_filter.mp hentry).2
    exact bne_iff_ne.mpr hne.symm
  rw [get?, entry?, erase, hlookup]
  rfl

theorem get?_erase_ne (context : ParentContext) {key other : String} (h : other ≠ key) :
    (context.erase key).get? other = context.get? other := by
  rw [get?, entry?, erase, lookup_filter_ne h, get?, entry?]

/-- A value under another key is not seen. -/
theorem agreeOn_insert (context : ParentContext) {key : String} (h : key ∉ keys) (value : String) :
    (context.insert key value).AgreeOn keys context := by
  intro other hother
  have hne : other ≠ key := by
    rintro rfl
    exact h hother
  exact get?_insert_ne context hne value

/-- An empty value is as good as none, under any key. -/
theorem agreeOn_insert_empty (context : ParentContext) (key : String) :
    (context.insert key "").AgreeOn keys (context.erase key) := by
  intro other _
  by_cases hsame : other = key
  · rw [hsame, get?_erase_self, get?, entry?_insert_self]
    rfl
  · rw [get?_insert_ne context hsame, get?_erase_ne context hsame]

theorem AgreeOn.require_eq (h : a.AgreeOn keys b) {key : String} (hkey : key ∈ keys)
    (element : String) : a.require key element = b.require key element := by
  rw [require, require, h key hkey]

end ParentContext

/-- The keys that parents of a name look up. -/
def keysRead (name : String) : List String :=
  if name = "Component" then ["ComponentId"]
  else if name = "ServiceInstall" then ["ServiceInstallComponentId", "ServiceInstallName"]
  else []

namespace Registry

variable {a b : ParentContext}

/--
A parent finds the same owner, or misses the same, in contexts that agree on the keys it looks up.
-/
theorem resolve_eq_of_agreeOn {name : String} {resolve : ParentHandler}
    (hresolve : http.parent? name = some resolve) (h : a.AgreeOn (keysRead name) b) :
    resolve a = resolve b := by
  rw [parent?_http] at hresolve
  by_cases hservice : name = "ServiceInstall"
  · rw [if_pos hservice, Option.some.injEq] at hresolve
    have hkeys : keysRead name = [Vocabulary.serviceInstallComponentIdKey,
        Vocabulary.serviceInstallNameKey] := by
      rw [hservice]
      rfl
    rw [hkeys] at h
    rw [← hresolve, Owner.ofServiceInstall, Owner.ofServiceInstall, h.require_eq (by simp),
      h _ (by simp)]
  · rw [if_neg hservice] at hresolve
    by_cases hcomponent : name = "Component"
    · rw [if_pos hcomponent, Option.some.injEq] at hresolve
      have hkeys : keysRead name = [Vocabulary.componentIdKey] := by
        rw [hcomponent]
        rfl
      rw [hkeys] at h
      rw [← hresolve, Owner.ofComponent, Owner.ofComponent, h.require_eq (by simp)]
    · rw [if_neg hcomponent] at hresolve
      cases hresolve

/-- So what becomes of an element under the parent is the same in both. -/
theorem route_eq_of_agreeOn {parent element : Element} (h : a.AgreeOn (keysRead parent.name) b) :
    http.route parent element a = http.route parent element b := by
  rw [RegistryOf.route, RegistryOf.route]
  cases hresolve : http.parent? parent.name with
  | none => rfl
  | some resolve =>
    cases http.handler? element.name with
    | none => rfl
    | some handler => simp only [resolve_eq_of_agreeOn hresolve h]

theorem dispatchInto_eq_of_agreeOn (policy : Policy) (s : Session) {parent element : Element}
    (h : a.AgreeOn (keysRead parent.name) b) :
    http.dispatchInto policy s ⟨parent, element, a⟩
      = http.dispatchInto policy s ⟨parent, element, b⟩ := by
  rw [dispatchInto, dispatchInto, dispatch, dispatch, route_eq_of_agreeOn h]

end Registry

/--
**Nothing but the keys of its own parent reaches an element.**

Dispatching an element under a parent leaves the same session in any two contexts that have the
same values under the keys the parent looks up, on every session and under either policy: under a
component its identifier, under a service the identifier of its component and its name, under any
other parent nothing at all.  So a value under another key makes no difference, and neither does
whether a key has an empty value or none.
-/
theorem only_own_keys_reach (policy : Policy) (s : Session) (parent element : Element) :
    (∀ a b : ParentContext, a.AgreeOn (keysRead parent.name) b →
      Registry.http.dispatchInto policy s ⟨parent, element, a⟩
        = Registry.http.dispatchInto policy s ⟨parent, element, b⟩) ∧
    (∀ (context : ParentContext) (key value : String), key ∉ keysRead parent.name →
      Registry.http.dispatchInto policy s ⟨parent, element, context.insert key value⟩
        = Registry.http.dispatchInto policy s ⟨parent, element, context⟩) ∧
    ∀ (context : ParentContext) (key : String),
      Registry.http.dispatchInto policy s ⟨parent, element, context.insert key ""⟩
        = Registry.http.dispatchInto policy s ⟨parent, element, context.erase key⟩ := by
  refine ⟨?_, ?_, ?_⟩
  · intro a b hagree
    exact Registry.dispatchInto_eq_of_agreeOn policy s hagree
  · intro context key value hkey
    exact Registry.dispatchInto_eq_of_agreeOn policy s (context.agreeOn_insert hkey value)
  · intro context key
    exact Registry.dispatchInto_eq_of_agreeOn policy s (context.agreeOn_insert_empty key)

/-- A reservation with an entry that names no principal. -/
def ambientReservation : Element :=
  let start : Position := ⟨1, 1⟩
  let own name value : Xml.Attribute := ⟨none, name, value, start⟩
  let http name attributes : Xml.Tag := ⟨some Vocabulary.httpNamespace, name, attributes, start⟩
  ⟨http "UrlReservation" [own "Id" "R", own "Url" "http://+:80/"],
    [.element (http "UrlAce" [own "Id" "A"]) []]⟩

/--
The name of a service is the principal of an entry under the service.  Under a component it is not:
the entry has no principal, with the name in the context as without it.
-/
theorem only_own_keys_reach_service :
    let parent name : Element := ⟨⟨none, name, [], ⟨1, 1⟩⟩, []⟩
    let context := ParentContext.ofList [("ComponentId", "C"), ("ServiceInstallComponentId", "C")]
    let dispatch name context :=
      Registry.http.dispatchInto .strict (.start .x86) ⟨parent name, ambientReservation, context⟩
    (dispatch "ServiceInstall" (context.insert "ServiceInstallName" "Svc")).aces.rows
        = [⟨⟨"A"⟩, ⟨"R"⟩, "NT SERVICE\\Svc", .all⟩] ∧
      "ServiceInstallName" ∉ keysRead "Component" ∧
      dispatch "Component" (context.insert "ServiceInstallName" "Svc")
        = dispatch "Component" context ∧
      (dispatch "Component" context).diagnostics
        = [⟨⟨1, 1⟩, .expectedAttribute "UrlAce" "SecurityPrincipal"⟩] := by
  intro parent context dispatch
  have hkey : "ServiceInstallName" ∉ keysRead "Component" := by decide
  have hreach := only_own_keys_reach .strict (.start .x86) (parent "Component") ambientReservation
  exact ⟨by decide, hkey, hreach.2.1 context "ServiceInstallName" "Svc" hkey, by decide⟩

end UrlReservations
