import ProviderTypes.Proofs.Registry.History
import ProviderTypes.Proofs.Rust.Outline
import Mathlib.Data.List.Forall2
import Mathlib.Logic.Relation

/-!
# ProviderTypes.Proofs.Rust.FiniteSize

The types of a source have finite size.  A definition knows the names from outside
and those of the definitions before it, and only these stand in line in it.  So
what a definition holds outside of every vector, map and box is defined before it,
and no chain of such definitions comes back to where it began (`finite_size`),
whatever the references of the registry are.
-/

namespace ProviderTypes.Rust

variable {s : GeneratorSettings} {r : Registry}

/-! ## known names -/

/-- The names that are known after these entries. -/
def knownAfter (known : List String) (es : List Registry.Entry) : List String :=
  (es.map fun e => e.1.fullName).reverse ++ known

/-- A name is known in the definition of an entry when it comes from outside or is the name of an
entry before. -/
def KnownAt (s : GeneratorSettings) (r : Registry) (i : Nat) (name : String) : Prop :=
  name ∈ s.externalNames ∨ ∃ j < i, ∃ key, r.keys[j]? = some key ∧ key.fullName = name

/-- Each outline is made with the names known that come before it. -/
theorem getElem?_outlines (known : List String) (es : List Registry.Entry) (i : Nat) :
    (outlines s known es)[i]? =
      es[i]?.map fun e => outline s (knownAfter known (es.take i)) e.1 e.2 := by
  induction es generalizing known i with
  | nil => simp [outlines]
  | cons e es ih =>
      obtain ⟨key, c⟩ := e
      rw [outlines]
      cases i with
      | zero => rfl
      | succ i => simp [ih, knownAfter]

theorem length_outlines (known : List String) (es : List Registry.Entry) :
    (outlines s known es).length = es.length := by
  induction es generalizing known with
  | nil => rfl
  | cons e es ih => exact congrArg Nat.succ (ih _)

/-- The known names at an entry are those from outside and of the entries before. -/
theorem mem_knownAfter_iff {i : Nat} {name : String} :
    name ∈ knownAfter s.externalNames (r.items.take i) ↔ KnownAt s r i name := by
  have hkeys : ∀ j, r.keys[j]? = r.items[j]?.map Prod.fst := fun j => List.getElem?_map
  simp only [knownAfter, KnownAt, List.mem_append, List.mem_reverse, List.mem_map,
    List.mem_take_iff_getElem, hkeys]
  rw [or_comm]
  apply or_congr_right
  constructor
  · intro hexists
    obtain ⟨e, ⟨j, hj, rfl⟩, hname⟩ := hexists
    rw [Nat.lt_min] at hj
    exact ⟨j, hj.1, r.items[j].1, by rw [List.getElem?_eq_getElem hj.2]; rfl, hname⟩
  · intro hexists
    obtain ⟨j, hj, key, hkey, hname⟩ := hexists
    obtain ⟨e, he, rfl⟩ := Option.map_eq_some_iff.1 hkey
    obtain ⟨hlt, rfl⟩ := List.getElem?_eq_some_iff.1 he
    exact ⟨_, ⟨j, Nat.lt_min.2 ⟨hj, hlt⟩, rfl⟩, hname⟩

/-! ## sources -/

/-- The outlines of the definitions of a registry, in the order of its entries. -/
def outlinesOf (s : GeneratorSettings) (r : Registry) : List (List Line) :=
  outlines s s.externalNames r.items

/-- The text of outlines, after the preamble. -/
def outlineText (s : GeneratorSettings) (outlines : List (List Line)) : String :=
  "\n\n".intercalate ((preamble s :: outlines.map (List.map Line.text)).map joinLines) ++ "\n"

/-- A source is the text of its outlines, and there is one when all references are resolved. -/
theorem source_eq_ok_iff {text : String} :
    source s r = .ok text ↔
      r.validateReferences s.externalNames = .ok () ∧
        text = outlineText s (outlinesOf s r) := by
  have htext : outlineText s (outlinesOf s r) =
      "\n\n".intercalate ((blocks s r).map joinLines) ++ "\n" := by
    rw [outlineText, outlinesOf, text_outlines]
    rfl
  rw [htext, source]
  cases r.validateReferences s.externalNames with
  | error e => simp
  | ok u => simp [eq_comm]

/-! ## holding -/

/-- The definition of one entry refers to another entry outside of every vector, map and box.  Only
references count: where the full name of an entry is also the spelling of a scalar, such as
`String`, the fields of this scalar do not. -/
def Holds (s : GeneratorSettings) (r : Registry) (a b : QualifiedName) : Prop :=
  ∃ (i : Nat) (lines : List Line), r.keys[i]? = some a ∧ (outlinesOf s r)[i]? = some lines ∧
    b ∈ r.keys ∧ ∃ t ∈ typesOf lines, b.fullName ∈ t.inline

/-- What a definition holds comes before it. -/
theorem compare_of_holds (hr : r.Consistent)
    (hexternal : ∀ key ∈ r.keys, key.fullName ∉ s.externalNames) {a b : QualifiedName}
    (h : Holds s r a b) : compare b a = .lt := by
  obtain ⟨i, lines, ha, hlines, hb, t, ht, hname⟩ := h
  rw [outlinesOf, getElem?_outlines, Option.map_eq_some_iff] at hlines
  obtain ⟨e, -, rfl⟩ := hlines
  rw [types_outline, List.mem_map] at ht
  obtain ⟨f, -, rfl⟩ := ht
  have hknown : KnownAt s r i b.fullName := mem_knownAfter_iff.1 (known_of_mem_inline f hname)
  cases hknown with
  | inl hout => exact absurd hout (hexternal b hb)
  | inr hbefore =>
      obtain ⟨j, hj, key, hkey, hfull⟩ := hbefore
      obtain ⟨hjlt, hjkey⟩ := List.getElem?_eq_some_iff.1 hkey
      obtain ⟨hilt, hia⟩ := List.getElem?_eq_some_iff.1 ha
      -- A full name belongs to one key, so the entry before is that of `b`.
      have hbkey : key = b := hr.eq_of_fullName_eq (List.mem_of_getElem? hkey) hb hfull
      have hsorted : r.keys.Pairwise fun k l => compare k l = .lt :=
        List.pairwise_map.2 r.entries.increasing
      have hlt := List.pairwise_iff_getElem.1 hsorted j i hjlt hilt hj
      rwa [hjkey, hia, hbkey] at hlt

/-- What a definition holds at any depth comes before it. -/
theorem compare_of_transGen (hr : r.Consistent)
    (hexternal : ∀ key ∈ r.keys, key.fullName ∉ s.externalNames) {a b : QualifiedName}
    (h : Relation.TransGen (Holds s r) a b) : compare b a = .lt := by
  induction h with
  | single hstep => exact compare_of_holds hr hexternal hstep
  | tail _ hstep ih => exact Std.TransCmp.lt_trans (compare_of_holds hr hexternal hstep) ih

/-- The types of a source have finite size.  The source is the text of its outlines, one for each
entry in order, and the outline of an entry spells the references of the entry's formats: a bare
name in a vector or a map; elsewhere a bare name when the name comes from outside or is that of an
entry before, and a name in a box when not.  Where no name from outside is that of an entry, no
entry holds itself, directly or through others. -/
theorem finite_size {text : String} (hr : r.Consistent) (h : source s r = .ok text) :
    text = outlineText s (outlinesOf s r) ∧
      (outlinesOf s r).length = r.items.length ∧
      (∀ (i : Nat) (e : Registry.Entry), r.items[i]? = some e →
        ∃ lines, (outlinesOf s r)[i]? = some lines ∧
          List.Forall₂ (Spells (KnownAt s r i)) e.2.formats (typesOf lines)) ∧
      ((∀ key ∈ r.keys, key.fullName ∉ s.externalNames) →
        ∀ key, ¬ Relation.TransGen (Holds s r) key key) := by
  refine ⟨(source_eq_ok_iff.1 h).2, length_outlines _ _, ?_, ?_⟩
  · intro i e he
    refine ⟨outline s (knownAfter s.externalNames (r.items.take i)) e.1 e.2, ?_, ?_⟩
    · rw [outlinesOf, getElem?_outlines, he, Option.map_some]
    · have hknown : (· ∈ knownAfter s.externalNames (r.items.take i)) = KnownAt s r i :=
        funext fun name => propext mem_knownAfter_iff
      rw [types_outline, ← hknown, List.forall₂_map_right_iff, List.forall₂_same]
      exact fun f _ => spells_tree _ f
  · intro hexternal key hcycle
    have hlt := compare_of_transGen hr hexternal hcycle
    have heq : compare key key = .eq := Std.ReflCmp.compare_self
    rw [heq] at hlt
    contradiction

/-- A record and a wrapper that refer to each other.  The record also refers to itself, to a name
from outside, and to the wrapper in a sequence. -/
def knot : Registry :=
  let b := Format.ref "b" (by decide)
  Registry.after
    [.insert ⟨none, "b"⟩ (.newtype (.ref "a" (by decide))),
      .insert ⟨none, "a"⟩ (.record
        ⟨[{ name := "direct", value := .option b }, { name := "listed", value := .seq b },
          { name := "itself", value := .tuple [.ref "a" (by decide)] },
          { name := "at", value := .ref "Stamp" (by decide) }], by decide⟩)]
    (.empty .error)

/-- The knot is written, and in its source the wrapper holds the record but not itself. -/
theorem finite_size_knot :
    let s : GeneratorSettings := { externalDefinitions := [("clock", ["Stamp"])] }
    knot.Consistent ∧ (∃ text, source s knot = .ok text) ∧
      (∀ key ∈ knot.keys, key.fullName ∉ s.externalNames) ∧
      Holds s knot ⟨none, "b"⟩ ⟨none, "a"⟩ ∧
      ¬ Relation.TransGen (Holds s knot) ⟨none, "b"⟩ ⟨none, "b"⟩ := by
  intro s
  have hconsistent : knot.Consistent := Registry.consistent_after _ (Registry.consistent_empty _)
  have hsource : ∃ text, source s knot = .ok text :=
    ⟨_, source_eq_ok_iff.2 ⟨by decide +kernel, rfl⟩⟩
  have hexternal : ∀ key ∈ knot.keys, key.fullName ∉ s.externalNames := by decide +kernel
  obtain ⟨text, htext⟩ := hsource
  obtain ⟨-, -, -, hacyclic⟩ := finite_size hconsistent htext
  have hholds : Holds s knot ⟨none, "b"⟩ ⟨none, "a"⟩ := by
    refine ⟨1, _, by decide +kernel, rfl, by decide +kernel, .named "a", ?_,
      List.mem_singleton_self _⟩
    rw [types_outline]
    exact List.mem_singleton_self _
  exact ⟨hconsistent, ⟨text, htext⟩, hexternal, hholds, hacyclic hexternal _⟩

end ProviderTypes.Rust
