import ProviderTypes.Container.Basic
import ProviderTypes.OrderedMap
import ProviderTypes.QualifiedName
/-!
# ProviderTypes.Registry.Basic

Registries of containers. A registry holds its entries by key and, beside them, the key that
owns each full name, since a reference names its container by the full name only. An entry is
never removed; what happens when a key is registered again with another definition is the
registry's policy.

`insert` and `replace` leave the registry alone when they fail; `merge` keeps the entries that
it took before a failure.
-/

namespace ProviderTypes

/-- What to do when a key is inserted again with a different definition. -/
inductive DuplicatePolicy where
  | error
  | overwrite
  deriving DecidableEq, Repr, Inhabited

def DuplicatePolicy.text : DuplicatePolicy → String
  | .error => "error"
  | .overwrite => "overwrite"

/-- All policies, in the order in which messages list them. -/
def DuplicatePolicy.all : List DuplicatePolicy := [.error, .overwrite]

/-- Containers by key, and the key that owns each full name. -/
structure Registry where
  policy : DuplicatePolicy
  entries : OrderedMap QualifiedName Container
  owners : OrderedMap String QualifiedName
  deriving Inhabited

/-- Why an entry is refused. -/
inductive RegistryError where
  /-- Another key is emitted under the same full name. -/
  | sharedFullName (owner key : QualifiedName)
  /-- The key is registered with another definition. -/
  | conflict (key : QualifiedName)
  /-- The key is registered with another definition in both registries of a merge. -/
  | mergeConflict (key : QualifiedName)
  deriving DecidableEq, Repr

def RegistryError.key : RegistryError → QualifiedName
  | .sharedFullName _ key => key
  | .conflict key => key
  | .mergeConflict key => key

def RegistryError.message : RegistryError → String
  | .sharedFullName owner key =>
    "Qualified names " ++ owner.shown ++ " and " ++ key.shown ++ " both emit as " ++ key.fullName
  | .conflict key => "Conflicting definitions registered for " ++ key.fullName
  | .mergeConflict key => "Cannot merge conflicting definitions for " ++ key.fullName

/-- References to names that nobody defines: the full name of the referring entry and the
    missing name. -/
structure Unresolved where
  missing : List (String × String)
  deriving DecidableEq, Repr

def Unresolved.message (u : Unresolved) : String :=
  "Unresolved type references: " ++
    ", ".intercalate (u.missing.map fun p => p.1 ++ " -> " ++ p.2)

namespace Registry

def empty (policy : DuplicatePolicy) : Registry := ⟨policy, .empty, .empty⟩

/-! ## Look-up -/

def get? (r : Registry) (key : QualifiedName) : Option Container := r.entries.get? key

/-- The container that is emitted under a full name. -/
def resolve? (r : Registry) (fullName : String) : Option Container :=
  (r.owners.get? fullName).bind r.get?

def keys (r : Registry) : List QualifiedName := r.entries.keys

def items (r : Registry) : List (QualifiedName × Container) := r.entries.entries

def fullNames (r : Registry) : List String := r.owners.keys

def size (r : Registry) : Nat := r.entries.size

/-! ## Registration -/

/-- The key that owns the full name of `key` and is another one. -/
def otherOwner? (r : Registry) (key : QualifiedName) : Option QualifiedName :=
  (r.owners.get? key.fullName).filter (· ≠ key)

/-- The registry with this entry, whatever stood there. -/
def store (r : Registry) (key : QualifiedName) (c : Container) : Registry :=
  { r with entries := r.entries.insert key c, owners := r.owners.insert key.fullName key }

/-- Whether inserting replaces a different definition. -/
def overwrites (r : Registry) (key : QualifiedName) (c : Container) : Bool :=
  r.policy = .overwrite &&
    match r.get? key with
    | none => false
    | some existing => ! decide (existing.Same c)

/-- Register a container. Registering a structurally equal definition again does nothing, and
    keeps the metadata of the first. -/
def insert (r : Registry) (key : QualifiedName) (c : Container) : Except RegistryError Registry :=
  match r.otherOwner? key with
  | some owner => .error (.sharedFullName owner key)
  | none =>
    match r.get? key with
    | none => .ok (r.store key c)
    | some existing =>
      if existing.Same c then .ok r
      else
        match r.policy with
        | .overwrite => .ok (r.store key c)
        | .error => .error (.conflict key)

/-- Register a container in place of any definition that the key had. -/
def replace (r : Registry) (key : QualifiedName) (c : Container) :
    Except RegistryError Registry :=
  match r.otherOwner? key with
  | some owner => .error (.sharedFullName owner key)
  | none => .ok (r.store key c)

/-- Take one entry of another registry; a different definition is refused under either
    policy. -/
def take (r : Registry) (key : QualifiedName) (c : Container) : Except RegistryError Registry :=
  match r.get? key with
  | some existing => if existing.Same c then r.insert key c else .error (.mergeConflict key)
  | none => r.insert key c

/-- Take entries in order up to the first that is refused. -/
def takeAll (r : Registry) : List (QualifiedName × Container) → Except RegistryError Unit × Registry
  | [] => (.ok (), r)
  | (key, c) :: rest =>
    match r.take key c with
    | .ok r' => takeAll r' rest
    | .error e => (.error e, r)

/-- Take every entry of another registry, in its order, up to the first that is refused. -/
def merge (r other : Registry) : Except RegistryError Unit × Registry := r.takeAll other.items

/-! ## References -/

/-- Whether a name is emitted by the registry or provided from outside. -/
def knows (r : Registry) (external : List String) (name : String) : Bool :=
  r.owners.contains name || name ∈ external

/-- The references to unknown names, each once, in order. -/
def missing (r : Registry) (external : List String) : List (String × String) :=
  (r.items.flatMap fun e =>
    (e.2.refs.filter fun name => ! r.knows external name).map fun name =>
      (e.1.fullName, name)).eraseDups

/-- Check that every reference resolves to an entry or to an external name. -/
def validateReferences (r : Registry) (external : List String) : Except Unresolved Unit :=
  match r.missing external with
  | [] => .ok ()
  | missing => .error ⟨missing⟩

/-! ## Comparison -/

def bareItems (r : Registry) : List (QualifiedName × Container) :=
  r.items.map fun e => (e.1, e.2.bare)

/-- Equality of registries: the same keys with structurally equal containers. -/
def Same (a b : Registry) : Prop := a.bareItems = b.bareItems

instance (a b : Registry) : Decidable (Same a b) :=
  inferInstanceAs (Decidable (a.bareItems = b.bareItems))

def shown (r : Registry) : String :=
  "Registry(" ++ bracketed (r.keys.map fun key => quoted key.fullName) ++ ")"

end Registry

end ProviderTypes
