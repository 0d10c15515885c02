/-
What is known about the elements around an extension element.

A context holds values under keys; setting a key again replaces its value, and an
empty value is as good as none.  Each kind of parent takes from it what its extension
children need: the component that owns their rows and, under a service, the virtual
account the service runs as.
-/
import UrlReservations.Reservation

namespace UrlReservations

/-- Values under keys, at most one for each key. -/
structure ParentContext where
  entries : List (String × String)

namespace ParentContext

/-- The context that knows nothing. -/
def empty : ParentContext := ⟨[]⟩

/-- Set the value of a key. -/
def insert (context : ParentContext) (key value : String) : ParentContext :=
  ⟨(key, value) :: context.entries.filter (·.1 ≠ key)⟩

/-- A context from pairs of a key and a value, of which later ones replace earlier ones. -/
def ofList (pairs : List (String × String)) : ParentContext :=
  pairs.foldl (fun context (key, value) => context.insert key value) empty

/-- The value set for a key, even if it is empty. -/
def entry? (context : ParentContext) (key : String) : Option String := context.entries.lookup key

/-- The value of a key; an empty one counts as absent. -/
def get? (context : ParentContext) (key : String) : Option String :=
  (context.entry? key).filter (· ≠ "")

/-- Two contexts are the same if every key has the same value in both, or none in both. -/
def same (a b : ParentContext) : Bool :=
  (a.entries ++ b.entries).all fun (key, _) => a.entry? key = b.entry? key

/-- The value of a key that an element needs for its extension children. -/
def require (context : ParentContext) (key element : String) : Except Message String :=
  match context.get? key with
  | some value => .ok value
  | none => .error (.missingContextValue element key)

end ParentContext

namespace Owner

/-- The owner of extension elements under a component. -/
def ofComponent (context : ParentContext) : Except Message Owner := do
  return ⟨← context.require Vocabulary.componentIdKey Vocabulary.component, none⟩

/--
The owner of extension elements under a service; entries default to the account of the service.
-/
def ofServiceInstall (context : ParentContext) : Except Message Owner := do
  let componentId ← context.require Vocabulary.serviceInstallComponentIdKey
    Vocabulary.serviceInstall
  let name? := context.get? Vocabulary.serviceInstallNameKey
  return ⟨componentId, name?.map (Vocabulary.serviceAccountDomain ++ ·)⟩

end Owner

end UrlReservations
