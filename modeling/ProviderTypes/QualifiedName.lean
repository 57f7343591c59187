import ProviderTypes.Text.Quoted
/-!
# ProviderTypes.QualifiedName

The keys of a registry: a local name in an optional namespace. Containers are emitted and
referred to by the full name of their key, which is not unique to the key.

Keys without a namespace come first, then the order is by namespace and by name.
-/

namespace ProviderTypes

/-- A name in an optional namespace. -/
structure QualifiedName where
  scope : Option String
  name : String
  deriving DecidableEq, Repr, Inhabited

namespace QualifiedName

/-- The name under which a container is emitted and referred to: the namespace, unless there is
    none or it is empty, joined to the local name. -/
def fullName (key : QualifiedName) : String :=
  match key.scope with
  | none => key.name
  | some scope => if scope = "" then key.name else scope ++ "_" ++ key.name

def shown (key : QualifiedName) : String :=
  "QualifiedName(namespace=" ++ (key.scope.map quoted).getD "None" ++ ", name=" ++
    quoted key.name ++ ")"

instance : Ord QualifiedName where
  compare := compareLex (compareOn scope) (compareOn name)

instance : Std.TransOrd QualifiedName :=
  inferInstanceAs (Std.TransCmp (compareLex (compareOn scope) (compareOn name)))

instance : Std.LawfulEqOrd QualifiedName where
  eq_of_compare {a b} h := by
    obtain ⟨s, n⟩ := a
    obtain ⟨t, m⟩ := b
    have h : compareLex (compareOn scope) (compareOn name) ⟨s, n⟩ ⟨t, m⟩ = .eq := h
    simp only [compareLex_eq_eq, compareOn] at h
    rw [Std.LawfulEqOrd.eq_of_compare h.1, Std.LawfulEqOrd.eq_of_compare h.2]

end QualifiedName

end ProviderTypes
