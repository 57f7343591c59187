import ProviderTypes.Rust.Type

/-!
# ProviderTypes.Proofs.Rust.TypeTree

Types as trees.  The spelling of a format is the text of a tree (`text_tree`), in
which every reference of the format is a leaf of its own: a bare name or a name in
a box.  Positions in a format and in its tree are the same, since both have their
parts in the same order.

1. A reference below a vector or a map is a bare name; any other one is a bare
   name exactly when its name is known (`spells_tree`).
2. The names that a tree has in line, that is outside of every vector, map and
   box, are known (`known_of_mem_inline`).
-/

namespace ProviderTypes

/-! ## positions in a format -/

namespace Format

/-- The formats that a format is made of, in order. -/
def parts : Format → List Format
  | .option inner => [inner]
  | .seq element => [element]
  | .map key value => [key, value]
  | .tuple elements => elements
  | .array element _ _ => [element]
  | _ => []

/-- The format at a position: the numbers of the parts to go down to. -/
def at? (f : Format) : List Nat → Option Format
  | [] => some f
  | i :: position => f.parts[i]?.bind fun part => part.at? position

/-- Whether the elements of a format are on the heap anyway. -/
def isCollection : Format → Bool
  | .seq _ | .map _ _ => true
  | _ => false

/-- Whether a position lies in a sequence or a map. -/
def onHeap (f : Format) : List Nat → Bool
  | [] => false
  | i :: position => f.isCollection || (f.parts[i]?.map fun part => part.onHeap position).getD false

end Format

namespace Rust

/-! ## trees -/

/-- A type as it is written. -/
inductive TypeTree where
  /-- A type that mentions no other. -/
  | word (text : String)
  | named (name : String)
  | boxed (name : String)
  | option (inner : TypeTree)
  | vec (element : TypeTree)
  | map (key value : TypeTree)
  | tuple (elements : List TypeTree)
  | array (element : TypeTree) (size : Nat)

namespace TypeTree

mutual
def text : TypeTree → String
  | .word text => text
  | .named name => name
  | .boxed name => "Box<" ++ name ++ ">"
  | .option inner => "Option<" ++ inner.text ++ ">"
  | .vec element => "Vec<" ++ element.text ++ ">"
  | .map key value => "Map<" ++ key.text ++ ", " ++ value.text ++ ">"
  | .tuple elements => tupleText (texts elements)
  | .array element size => "[" ++ element.text ++ "; " ++ toString size ++ "]"
def texts : List TypeTree → List String
  | [] => []
  | t :: rest => t.text :: texts rest
end

mutual
/-- The names that a type mentions outside of every vector, map and box. -/
def inline : TypeTree → List String
  | .named name => [name]
  | .option inner => inner.inline
  | .tuple elements => inlineAll elements
  | .array element _ => element.inline
  | _ => []
/-- The names that types mention outside of every vector, map and box. -/
def inlineAll : List TypeTree → List String
  | [] => []
  | t :: rest => t.inline ++ inlineAll rest
end

/-- The types that a type is made of, in order. -/
def parts : TypeTree → List TypeTree
  | .option inner => [inner]
  | .vec element => [element]
  | .map key value => [key, value]
  | .tuple elements => elements
  | .array element _ => [element]
  | _ => []

/-- The type at a position. -/
def at? (t : TypeTree) : List Nat → Option TypeTree
  | [] => some t
  | i :: position => t.parts[i]?.bind fun part => part.at? position

end TypeTree

/-- A reference, boxed unless its name is known; without known names no reference is boxed. -/
def refTree (known : Option (List String)) (name : String) : TypeTree :=
  match known with
  | none => .named name
  | some names => if name ∈ names then .named name else .boxed name

mutual
/-- The type of a format. -/
def tree (known : Option (List String)) : Format → TypeTree
  | .option inner => .option (tree known inner)
  | .seq element => .vec (tree none element)
  | .map key value => .map (tree none key) (tree none value)
  | .tuple elements => .tuple (trees known elements)
  | .array element size _ => .array (tree known element) size
  | .ref name _ => refTree known name
  | f => .word (typeText known f)
def trees (known : Option (List String)) : List Format → List TypeTree
  | [] => []
  | f :: rest => tree known f :: trees known rest
end

variable {known : Option (List String)} {names : List String}

theorem trees_eq_map (known : Option (List String)) (fs : List Format) :
    trees known fs = fs.map (tree known) := by
  induction fs with
  | nil => rfl
  | cons f fs ih => rw [trees, ih, List.map_cons]

/-- The tree of a reference is its spelling. -/
theorem text_refTree (known : Option (List String)) (name : String) :
    (refTree known name).text = refText known name := by
  cases known with
  | none => rfl
  | some names =>
      rw [refTree, refText]
      split <;> rfl

mutual
/-- The spelling of a format is the text of its type. -/
theorem text_tree (known : Option (List String)) : (f : Format) →
    (tree known f).text = typeText known f
  | .unit | .bool | .int _ _ | .float _ | .char | .str | .bytes => rfl
  | .option inner => by rw [tree, TypeTree.text, typeText, text_tree known inner]
  | .seq element => by rw [tree, TypeTree.text, typeText, text_tree none element]
  | .map key value => by
      rw [tree, TypeTree.text, typeText, text_tree none key, text_tree none value]
  | .tuple elements => by rw [tree, TypeTree.text, typeText, texts_trees known elements]
  | .array element size _ => by rw [tree, TypeTree.text, typeText, text_tree known element]
  | .ref name _ => text_refTree known name
theorem texts_trees (known : Option (List String)) : (fs : List Format) →
    TypeTree.texts (trees known fs) = typeTexts known fs
  | [] => rfl
  | f :: fs => by rw [trees, TypeTree.texts, typeTexts, text_tree known f, texts_trees known fs]
end

/-! ## spellings of references -/

/-- The names that count below a format: none are asked for in a collection. -/
def knownBelow (known : Option (List String)) (f : Format) : Option (List String) :=
  if f.isCollection then none else known

/-- A type has its parts in the order of the format. -/
theorem parts_tree (known : Option (List String)) (f : Format) :
    (tree known f).parts = f.parts.map (tree (knownBelow known f)) := by
  cases f with
  | tuple elements => exact trees_eq_map known elements
  | ref name _ =>
      cases known with
      | none => rfl
      | some names =>
          rw [tree, refTree]
          split <;> rfl
  | _ => rfl

/-- Each position of a format is a position of its type, where the type of that part stands. -/
theorem at?_tree {f g : Format} {position : List Nat} (h : f.at? position = some g) :
    (tree known f).at? position = some (tree (if f.onHeap position then none else known) g) := by
  induction position generalizing known f with
  | nil =>
      cases h
      rfl
  | cons i position ih =>
      rw [Format.at?, Option.bind_eq_some_iff] at h
      obtain ⟨part, hpart, h⟩ := h
      rw [TypeTree.at?, parts_tree, List.getElem?_map, hpart, Option.map_some, Option.bind_some,
        ih h, Format.onHeap, hpart, knownBelow]
      cases f.isCollection <;> simp

/-- The type spells the references of the format: a bare name where the reference lies in a
sequence or a map; elsewhere a bare name if the name is known, and a name in a box if not. -/
structure Spells (Known : String → Prop) (f : Format) (t : TypeTree) : Prop where
  onHeap : ∀ {position name named}, f.at? position = some (.ref name named) →
    f.onHeap position = true → t.at? position = some (.named name)
  bare_iff : ∀ {position name named}, f.at? position = some (.ref name named) →
    f.onHeap position = false → (t.at? position = some (.named name) ↔ Known name)
  boxed_iff : ∀ {position name named}, f.at? position = some (.ref name named) →
    f.onHeap position = false → (t.at? position = some (.boxed name) ↔ ¬ Known name)

/-- The type of a format spells its references. -/
theorem spells_tree (names : List String) (f : Format) :
    Spells (· ∈ names) f (tree (some names) f) where
  onHeap h hheap := by
    rw [at?_tree h, hheap, if_pos rfl]
    rfl
  bare_iff {position name named} h hheap := by
    rw [at?_tree h, hheap, if_neg Bool.false_ne_true, tree, refTree]
    by_cases hname : name ∈ names <;> simp [hname]
  boxed_iff {position name named} h hheap := by
    rw [at?_tree h, hheap, if_neg Bool.false_ne_true, tree, refTree]
    by_cases hname : name ∈ names <;> simp [hname]

/-! ## names in line -/

mutual
/-- Only known names are mentioned outside of every vector, map and box. -/
theorem known_of_mem_inline {name : String} : (f : Format) → name ∈ (tree (some names) f).inline →
    name ∈ names
  | .unit, h | .bool, h | .int _ _, h | .float _, h | .char, h | .str, h | .bytes, h
  | .seq _, h | .map _ _, h => by simp [tree, TypeTree.inline] at h
  | .option inner, h => known_of_mem_inline inner h
  | .array element _ _, h => known_of_mem_inline element h
  | .tuple elements, h => known_of_mem_inlineAll elements h
  | .ref other _, h => by
      rw [tree, refTree] at h
      by_cases hother : other ∈ names
      · simp only [hother, if_true, TypeTree.inline, List.mem_singleton] at h
        rwa [h]
      · simp [hother, TypeTree.inline] at h
theorem known_of_mem_inlineAll {name : String} : (fs : List Format) →
    name ∈ TypeTree.inlineAll (trees (some names) fs) → name ∈ names
  | [], h => by simp [trees, TypeTree.inlineAll] at h
  | f :: fs, h => by
      rw [trees, TypeTree.inlineAll, List.mem_append] at h
      cases h with
      | inl h => exact known_of_mem_inline f h
      | inr h => exact known_of_mem_inlineAll fs h
end

end Rust

end ProviderTypes
