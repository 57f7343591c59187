import ProviderTypes.Proofs.Flatten.Declaration

/-!
# ProviderTypes.Proofs.Flatten.NestedPath

The places of nested blocks.  A `NestedPath` leads from the block of a provider,
resource or data source down to a nested block type; `NestedPath.key` is the key
that the block type is registered under, by the scopes that blocks hand down to
their children.

A key does not determine its path.  The scope glues the names of all ancestors
with underscores, and names may have underscores themselves, so only the words
between underscores remain: two paths share a key exactly when they end in the
same name and their ancestors have the same words (`NestedPath.key_eq_iff`).
-/

namespace ProviderTypes

/-- The parts of a name between its underscores. -/
def words (name : String) : List (List Char) := name.toList.splitOn '_'

/-- Gluing two names with an underscore puts their words in a row. -/
theorem words_glue (s t : String) : words (s ++ "_" ++ t) = words s ++ words t := by
  unfold words
  rw [String.toList_append, String.toList_append, List.append_assoc]
  exact List.splitOn_append_cons_self _ _

/-- The words of a name determine it. -/
theorem words_inj {s t : String} : words s = words t ↔ s = t := by
  constructor
  · intro h
    have hjoin := congrArg (fun ws => ['_'].intercalate ws) h
    unfold words at hjoin
    rw [List.intercalate_splitOn, List.intercalate_splitOn] at hjoin
    exact String.toList_inj.1 hjoin
  · exact congrArg words

/-- Where a nested block type stands. -/
structure NestedPath where
  /-- The provider that declares it. -/
  provider : String
  /-- The scope of the outermost block, which a provider's own block does not have. -/
  scope : Option String
  /-- The name of the outermost block. -/
  root : String
  /-- The names of the blocks between, the nearest first. -/
  inner : List String
  child : String
  deriving DecidableEq, Repr

namespace NestedPath

/-- The namespace that the block at the end of `inner` hands down to its children. -/
def handedDown (scope : Option String) (root : String) : List String → String
  | [] => childScope scope root
  | name :: outer => childScope (some (handedDown scope root outer)) name

/-- The scope of the block at the end of `inner`. -/
def parentScope (scope : Option String) (root : String) : List String → Option String
  | [] => scope
  | _ :: outer => some (handedDown scope root outer)

/-- The name of the block at the end of `inner`. -/
def parentName (root : String) : List String → String
  | [] => root
  | name :: _ => name

/-- The key under which the block type is registered. -/
def key (p : NestedPath) : QualifiedName :=
  .nested (parentScope p.scope p.root p.inner) (parentName p.root p.inner) p.child

/-- The names of all blocks that the block type is nested in, the nearest first, and the scope of
the outermost. -/
def ancestors (p : NestedPath) : List String := p.inner ++ p.root :: p.scope.toList

/-- The outermost block has a scope or a name. -/
def Named (p : NestedPath) : Prop := p.scope ≠ some "" ∧ (p.scope = none → p.root ≠ "")

/-- The scope that the parent of a path hands down is made of the names of all ancestors. -/
theorem childScope_parent (scope : Option String) (root : String) (inner : List String) :
    childScope (parentScope scope root inner) (parentName root inner) =
      handedDown scope root inner := by
  cases inner <;> rfl

/-- The key of a path is made of what is handed down and the name at the end. -/
theorem key_eq (p : NestedPath) :
    p.key = ⟨some (handedDown p.scope p.root p.inner ++ "_block_type"), p.child⟩ := by
  rw [key, QualifiedName.nested, childScope_parent]

theorem childScope_some {s : String} (h : s ≠ "") (name : String) :
    childScope (some s) name = name ++ "_" ++ s := by
  simp [childScope, h]

/-- What is handed down has the words of all ancestors. -/
theorem words_handedDown {scope : Option String} {root : String} (hscope : scope ≠ some "")
    (hroot : scope = none → root ≠ "") (inner : List String) :
    words (handedDown scope root inner) = (inner ++ root :: scope.toList).flatMap words ∧
      handedDown scope root inner ≠ "" := by
  induction inner with
  | nil =>
      cases scope with
      | none => exact ⟨by simp [handedDown, childScope], hroot rfl⟩
      | some s =>
          have hs : s ≠ "" := fun h => hscope (by rw [h])
          rw [handedDown, childScope_some hs]
          refine ⟨?_, append_ne_empty_of_right hs⟩
          rw [words_glue]
          simp
  | cons name inner ih =>
      obtain ⟨hwords, hne⟩ := ih
      rw [handedDown, childScope_some hne]
      refine ⟨?_, append_ne_empty_of_right hne⟩
      rw [words_glue, hwords, List.cons_append, List.flatMap_cons]

/-- Two paths share a key exactly when they end in the same name and their ancestors have the same
words. -/
theorem key_eq_iff {p q : NestedPath} (hp : p.Named) (hq : q.Named) :
    p.key = q.key ↔
      p.child = q.child ∧ p.ancestors.flatMap words = q.ancestors.flatMap words := by
  have hscopes : handedDown p.scope p.root p.inner ++ "_block_type" =
      handedDown q.scope q.root q.inner ++ "_block_type" ↔
        p.ancestors.flatMap words = q.ancestors.flatMap words := by
    rw [ancestors, ← (words_handedDown hp.1 hp.2 p.inner).1, ancestors,
      ← (words_handedDown hq.1 hq.2 q.inner).1, words_inj, String.append_left_inj]
  rw [key_eq, key_eq, QualifiedName.mk.injEq, Option.some.injEq, hscopes, and_comm]

end NestedPath

/-! ## the paths of a block -/

namespace Flatten

mutual
/-- The paths to all blocks nested in the block at the end of `inner`, in the order of their
declarations. -/
def paths (provider : String) (scope : Option String) (root : String) (inner : List String) :
    Block → List NestedPath
  | .mk _ blockTypes => pathsAll provider scope root inner blockTypes
/-- The paths to these block types and to all nested in them. -/
def pathsAll (provider : String) (scope : Option String) (root : String) (inner : List String) :
    List (String × Nesting × Block) → List NestedPath
  | [] => []
  | (child, _, block) :: rest =>
    paths provider scope root (child :: inner) block ++
      ⟨provider, scope, root, inner, child⟩ :: pathsAll provider scope root inner rest
end

variable {provider root : String} {scope : Option String}

mutual
/-- Paths from a block with a name have names. -/
theorem named_of_mem_paths (hscope : scope ≠ some "") (hroot : scope = none → root ≠ "") :
    (block : Block) → (inner : List String) →
    ∀ p ∈ paths provider scope root inner block, p.Named
  | .mk as blockTypes, inner => by
      intro p hp
      rw [paths] at hp
      exact named_of_mem_pathsAll hscope hroot blockTypes inner p hp
theorem named_of_mem_pathsAll (hscope : scope ≠ some "") (hroot : scope = none → root ≠ "") :
    (blockTypes : List (String × Nesting × Block)) → (inner : List String) →
    ∀ p ∈ pathsAll provider scope root inner blockTypes, p.Named
  | [], inner => by simp [pathsAll]
  | (child, nesting, block) :: rest, inner => by
      intro p hp
      rw [pathsAll, List.mem_append, List.mem_cons] at hp
      cases hp with
      | inl hp => exact named_of_mem_paths hscope hroot block (child :: inner) p hp
      | inr hp =>
          cases hp with
          | inl hp =>
              subst hp
              exact ⟨hscope, hroot⟩
          | inr hp => exact named_of_mem_pathsAll hscope hroot rest inner p hp
end

mutual
/-- The paths of a block have the keys of the declarations, in their order. -/
theorem map_key_paths : (block : Block) → (inner : List String) →
    (paths provider scope root inner block).map NestedPath.key =
      (nested (NestedPath.parentScope scope root inner) (NestedPath.parentName root inner)
        block).map Declaration.key
  | .mk as blockTypes, inner => by
      rw [paths, nested]
      exact map_key_pathsAll blockTypes inner
/-- The keys of the paths through block types are those of the blocks nested there. -/
theorem map_key_pathsAll : (blockTypes : List (String × Nesting × Block)) → (inner : List String) →
    (pathsAll provider scope root inner blockTypes).map NestedPath.key =
      (nestedAll (NestedPath.parentScope scope root inner) (NestedPath.parentName root inner)
        blockTypes).map Declaration.key
  | [], inner => rfl
  | (child, nesting, block) :: rest, inner => by
      have hinner := map_key_paths block (child :: inner)
      rw [NestedPath.parentScope, ← NestedPath.childScope_parent] at hinner
      rw [pathsAll, nestedAll, List.map_append, List.map_append, List.map_cons, List.map_cons,
        hinner, map_key_pathsAll rest inner]
      rfl
end

/-- Of the declarations of a block those with a namespace are the nested ones. -/
theorem map_key_paths_inNameOrder (block : Block) :
    (paths provider scope root [] block.inNameOrder).map NestedPath.key =
      ((declarations scope root block).map Declaration.key).filter fun key => key.scope.isSome := by
  have hkeys : (paths provider scope root [] block.inNameOrder).map NestedPath.key =
      (nested scope root block.inNameOrder).map Declaration.key :=
    map_key_paths block.inNameOrder []
  have hall : ((nested scope root block.inNameOrder).map Declaration.key).filter
        (fun key => key.scope.isSome) =
      (nested scope root block.inNameOrder).map Declaration.key := by
    rw [List.filter_eq_self, ← hkeys]
    intro key hkey
    obtain ⟨p, -, rfl⟩ := List.mem_map.1 hkey
    rw [NestedPath.key_eq]
    rfl
  rw [declarations, List.map_append, List.filter_append, hall, hkeys]
  exact (List.append_nil _).symm

end Flatten

end ProviderTypes
