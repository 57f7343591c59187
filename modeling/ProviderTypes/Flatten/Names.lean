import ProviderTypes.QualifiedName
import ProviderTypes.Format.Basic
/-!
# ProviderTypes.Flatten.Names

The keys under which blocks are registered. The block of a provider, resource or data source
has a key without a namespace. The namespace of a nested block names all its ancestors, the
nearest first, so that blocks of one name under different parents have different keys.
-/

namespace ProviderTypes

/-- The key of the block of a provider, resource or data source. -/
def QualifiedName.details (name : String) : QualifiedName := ⟨none, name ++ "_details"⟩

/-- The namespace that the block `name` hands down to its children. -/
def childScope (scope : Option String) (name : String) : String :=
  match scope with
  | none => name
  | some s => if s = "" then name else name ++ "_" ++ s

/-- The key of the block type `child` nested under the block `name`. -/
def QualifiedName.nested (scope : Option String) (name child : String) : QualifiedName :=
  ⟨some (childScope scope name ++ "_block_type"), child⟩

/-- A text that ends in another one is not empty unless the other is. -/
theorem append_ne_empty_of_right {s t : String} (h : t ≠ "") : s ++ t ≠ "" := by
  intro e
  apply h
  have := congrArg String.toList e
  simp only [String.toList_append, String.toList_empty, List.append_eq_nil_iff] at this
  exact String.toList_eq_nil_iff.1 this.2

/-- Blocks at the top are referred to by their name with a suffix. -/
theorem QualifiedName.fullName_details (name : String) :
    (QualifiedName.details name).fullName = name ++ "_details" := rfl

/-- Nested blocks are referred to by the scope of their parent and their own name. -/
theorem QualifiedName.fullName_nested (scope : Option String) (name child : String) :
    (QualifiedName.nested scope name child).fullName =
      childScope scope name ++ "_block_type" ++ "_" ++ child := by
  simp only [QualifiedName.nested, QualifiedName.fullName]
  rw [if_neg (append_ne_empty_of_right (by decide))]

theorem QualifiedName.fullName_details_ne_empty (name : String) :
    (QualifiedName.details name).fullName ≠ "" :=
  append_ne_empty_of_right (by decide)

theorem QualifiedName.fullName_nested_ne_empty (scope : Option String) (name child : String) :
    (QualifiedName.nested scope name child).fullName ≠ "" := by
  rw [fullName_nested, String.append_assoc, String.append_assoc]
  refine append_ne_empty_of_right fun e => ?_
  have := congrArg String.toList e
  simp at this

/-- A reference to the block of a provider, resource or data source. -/
def Format.detailsRef (name : String) : Format :=
  .ref (QualifiedName.details name).fullName (QualifiedName.fullName_details_ne_empty name)

/-- A reference to a nested block type. -/
def Format.nestedRef (scope : Option String) (name child : String) : Format :=
  .ref (QualifiedName.nested scope name child).fullName
    (QualifiedName.fullName_nested_ne_empty scope name child)

end ProviderTypes
