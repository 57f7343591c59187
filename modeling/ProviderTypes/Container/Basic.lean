import ProviderTypes.Format.Basic
import ProviderTypes.Repeats
/-!
# ProviderTypes.Container.Basic

Containers: the named shapes that a registry holds. A record has fields with distinct names, a
union has variants with distinct names, which are numbered from zero in order.

Fields carry metadata for the emitted text; `Container.bare` forgets it, and two containers are
structurally equal (`Container.Same`) when their bare forms are equal.
-/

namespace ProviderTypes

/-- What a schema says about a field beside its format. -/
structure FieldMetadata where
  /-- The name in the schema. -/
  sourceName : Option String := none
  description : Option String := none
  descriptionKind : Option String := none
  required : Bool := false
  sensitive : Bool := false
  deprecated : Bool := false
  deriving DecidableEq, Repr

/-- A named value. -/
structure Field where
  name : String
  value : Format
  metadata : FieldMetadata := {}
  deriving DecidableEq, Repr

/-- Fields with distinct names. -/
structure Record where
  fields : List Field
  distinct : (fields.map Field.name).Nodup
  deriving Repr

/-- What a variant holds. -/
inductive Shape where
  | unit
  | newtype (format : Format)
  | tuple (formats : List Format)
  | record (record : Record)
  deriving Repr

/-- One alternative of a union. -/
structure Variant where
  name : String
  shape : Shape
  deriving Repr

/-- Alternatives with distinct names; the discriminant of each is its position. -/
structure Union where
  variants : List Variant
  distinct : (variants.map Variant.name).Nodup
  deriving Repr

/-- A named shape. -/
inductive Container where
  /-- A type without any value. -/
  | unit
  /-- A wrapper around one format. -/
  | newtype (format : Format)
  | record (record : Record)
  | union (union : Union)
  deriving Repr

/-! ## Equality -/

theorem Record.ext {r s : Record} (h : r.fields = s.fields) : r = s := by
  cases r; cases s; simpa using h

instance : DecidableEq Record := fun r s =>
  decidable_of_iff (r.fields = s.fields) ⟨Record.ext, fun h => h ▸ rfl⟩

deriving instance DecidableEq for Shape
deriving instance DecidableEq for Variant

theorem Union.ext {u v : Union} (h : u.variants = v.variants) : u = v := by
  cases u; cases v; simpa using h

instance : DecidableEq Union := fun u v =>
  decidable_of_iff (u.variants = v.variants) ⟨Union.ext, fun h => h ▸ rfl⟩

deriving instance DecidableEq for Container

/-! ## Checked construction -/

namespace Record

/-- The record without fields. -/
def empty : Record := ⟨[], by simp⟩

/-- The record of these fields; the first name that repeats an earlier one is an error. -/
def ofFields (kind : RecordKind) (fields : List Field) : Except FormatError Record :=
  match h : firstRepeat? (fields.map Field.name) with
  | none => .ok ⟨fields, firstRepeat?_eq_none_iff.1 h⟩
  | some name => .error (.repeatedField kind name)

end Record

namespace Union

/-- The first variant whose number is not its position, counted from `expected`, or whose name
    is in `seen` or repeats an earlier one. -/
def fault? (expected : Nat) (seen : List String) : List (Int × Variant) → Option FormatError
  | [] => none
  | (number, v) :: rest =>
    if number ≠ expected then some (.discriminant v.name number expected)
    else if v.name ∈ seen then some (.repeatedVariant v.name)
    else fault? (expected + 1) (v.name :: seen) rest

/-- Variants without a fault have distinct names, none of which was seen before. -/
theorem nodup_of_fault?_eq_none {expected : Nat} {seen : List String}
    {numbered : List (Int × Variant)} (h : fault? expected seen numbered = none) :
    (numbered.map fun p => p.2.name).Nodup ∧ ∀ p ∈ numbered, p.2.name ∉ seen := by
  induction numbered generalizing expected seen with
  | nil => simp
  | cons p rest ih =>
    obtain ⟨number, v⟩ := p
    rw [fault?] at h
    split at h
    · simp at h
    · split at h
      · simp at h
      · rename_i _ hv
        obtain ⟨hn, hs⟩ := ih h
        refine ⟨?_, ?_⟩
        · simp only [List.map_cons, List.nodup_cons, List.mem_map, not_exists, not_and]
          exact ⟨fun q hq he => hs q hq (by simp [he]), hn⟩
        · rintro q hq
          rcases List.mem_cons.1 hq with rfl | hq
          · exact hv
          · exact fun hm => hs q hq (List.mem_cons_of_mem _ hm)

/-- The union of these variants, each with the discriminant that was written for it. -/
def ofNumbered (numbered : List (Int × Variant)) : Except FormatError Union :=
  match h : fault? 0 [] numbered with
  | some e => .error e
  | none =>
    .ok ⟨numbered.map Prod.snd, by
      have := (nodup_of_fault?_eq_none h).1
      rwa [List.map_map]⟩

/-- Variants with their positions. -/
def numberFrom (start : Nat) : List Variant → List (Int × Variant)
  | [] => []
  | v :: rest => (Int.ofNat start, v) :: numberFrom (start + 1) rest

/-- The union of these variants, numbered by their positions. -/
def ofVariants (variants : List Variant) : Except FormatError Union :=
  ofNumbered (numberFrom 0 variants)

end Union

/-! ## Without metadata -/

/-- The field without metadata. -/
def Field.bare (f : Field) : Field := { f with metadata := {} }

@[simp] theorem Field.name_bare (f : Field) : f.bare.name = f.name := rfl

@[simp] theorem Field.value_bare (f : Field) : f.bare.value = f.value := rfl

def Record.bare (r : Record) : Record :=
  ⟨r.fields.map Field.bare, by
    have : (r.fields.map Field.bare).map Field.name = r.fields.map Field.name := by
      simp [List.map_map, Function.comp_def]
    rw [this]; exact r.distinct⟩

def Shape.bare : Shape → Shape
  | .record r => .record r.bare
  | s => s

def Variant.bare (v : Variant) : Variant := { v with shape := v.shape.bare }

@[simp] theorem Variant.name_bare (v : Variant) : v.bare.name = v.name := rfl

def Union.bare (u : Union) : Union :=
  ⟨u.variants.map Variant.bare, by
    have : (u.variants.map Variant.bare).map Variant.name = u.variants.map Variant.name := by
      simp [List.map_map, Function.comp_def]
    rw [this]; exact u.distinct⟩

namespace Container

def bare : Container → Container
  | .record r => .record r.bare
  | .union u => .union u.bare
  | c => c

/-- Structural equality: metadata does not count. -/
def Same (a b : Container) : Prop := a.bare = b.bare

instance (a b : Container) : Decidable (Same a b) := inferInstanceAs (Decidable (a.bare = b.bare))

theorem Same.rfl {a : Container} : Same a a := by simp [Same]

/-- Structural equality does not depend on the side. -/
theorem Same.symm {a b : Container} (h : Same a b) : Same b a := Eq.symm h

theorem Same.trans {a b c : Container} (h : Same a b) (h' : Same b c) : Same a c :=
  Eq.trans h h'

end Container

/-! ## References -/

def Record.refs (r : Record) : List String := r.fields.flatMap fun f => f.value.refs

def Shape.refs : Shape → List String
  | .unit => []
  | .newtype f => f.refs
  | .tuple fs => Format.refsAll fs
  | .record r => r.refs

/-- The names a container refers to, in order and with repetitions. -/
def Container.refs : Container → List String
  | .unit => []
  | .newtype f => f.refs
  | .record r => r.refs
  | .union u => u.variants.flatMap fun v => v.shape.refs

end ProviderTypes
