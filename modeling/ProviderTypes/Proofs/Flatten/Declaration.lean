import ProviderTypes.Flatten.Basic
import ProviderTypes.Proofs.Container.Construction
import ProviderTypes.Proofs.Except
import ProviderTypes.Proofs.Registry.Bare
import Mathlib.Data.List.Forall2
import Mathlib.Tactic.ByContra

/-!
# ProviderTypes.Proofs.Flatten.Declaration

What a block declares, without a registry.  Every block of a schema is one
`Declaration`: it has a key, and the record that it translates to depends on the
block and its place alone, not on what else is registered.

A block translates exactly when the types of its attributes are supported and the
field names of its attributes and block types are distinct
(`exists_translate_iff`).
-/

namespace ProviderTypes

/-! ## the record of a block -/

/-- The type has a tag with a format: a scalar, a sequence or a map.  With parameters only the
latter two have one. -/
def AttributeType.Supported : AttributeType → Prop
  | .primitive tag => tag ∈ ["string", "bool", "number", "set", "list", "map"]
  | .tagged tag _ => tag ∈ ["set", "list", "map"]

instance (t : AttributeType) : Decidable t.Supported := by
  cases t <;> unfold AttributeType.Supported <;> infer_instance

namespace Flatten

/-- The fields that refer to the block types nested in the block `name`. -/
def nestedFields (rules : EscapeRules) (scope : Option String) (name : String)
    (blockTypes : Members (Nesting × Block)) : List Field :=
  blockTypes.map fun e => nestedField rules scope name e.1

/-- The record of the block `name`, or why there is none. -/
def translate (rules : EscapeRules) (scope : Option String) (name : String) (block : Block) :
    Except ExportError Record := do
  let fields ← (attributeFields rules block.attributes).mapError ExportError.unsupported
  (Record.ofFields .struct (fields ++ nestedFields rules scope name block.blockTypes)).mapError
    ExportError.format

/-- The field names of a block's attributes and of its block types. -/
def fieldNames (rules : EscapeRules) (block : Block) : List String :=
  (block.attributes.names ++ block.blockTypes.names).map rules.escape

end Flatten

/-- Exactly the supported types have formats. -/
theorem AttributeType.supported_iff (t : AttributeType) : t.Supported ↔ ∃ f, t.format = .ok f := by
  cases t with
  | primitive tag =>
      simp only [Supported, List.mem_cons, List.not_mem_nil, or_false]
      constructor
      · rintro (rfl | rfl | rfl | rfl | rfl | rfl) <;> exact ⟨_, rfl⟩
      · intro hexists
        obtain ⟨f, hf⟩ := hexists
        by_contra h
        simp only [not_or] at h
        simp [format, scalarFormat?, isSequenceTag, isMapTag, h] at hf
  | tagged tag rest =>
      simp only [Supported, List.mem_cons, List.not_mem_nil, or_false]
      constructor
      · rintro (rfl | rfl | rfl) <;> exact ⟨_, rfl⟩
      · intro hexists
        obtain ⟨f, hf⟩ := hexists
        by_contra h
        simp only [not_or] at h
        simp [format, isSequenceTag, isMapTag, h] at hf

/-- An attribute has a field exactly when its type is supported. -/
theorem Attribute.exists_field_iff (rules : EscapeRules) (name : String) (a : Attribute) :
    (∃ f, a.field rules name = .ok f) ↔ a.type.Supported := by
  rw [AttributeType.supported_iff]
  unfold Attribute.field Attribute.format
  cases a.type.format with
  | error e => simp [Functor.map, Except.map]
  | ok f => simp [Functor.map, Except.map]

/-- The field of an attribute has its escaped name beside the name itself, and the format of its
type, optional where the attribute is. -/
theorem Attribute.field_cases {rules : EscapeRules} {name : String} {a : Attribute} {f : Field}
    (h : a.field rules name = .ok f) :
    f.name = rules.escape name ∧ f.metadata.sourceName = some name ∧
      ∃ g, a.type.format = .ok g ∧
        f.value = if a.optional || a.computed then .option g else g := by
  unfold field Attribute.format at h
  cases hg : a.type.format with
  | error e => simp [hg, Functor.map, Except.map] at h
  | ok g =>
      simp only [hg, Functor.map, Except.map, Except.ok.injEq] at h
      subst h
      refine ⟨rfl, rfl, g, rfl, ?_⟩
      exact apply_ite (fun wrap : Format → Format => wrap g) _ _ _

/-- Attributes have fields when each of them has one. -/
theorem attributeFields_cons_eq_ok {rules : EscapeRules} {name : String} {a : Attribute}
    {as : Members Attribute} {fs : List Field} :
    attributeFields rules ((name, a) :: as) = .ok fs ↔
      ∃ f others, a.field rules name = .ok f ∧ attributeFields rules as = .ok others ∧
        f :: others = fs := by
  simp only [attributeFields, bind_eq_ok, pure, Except.pure, Except.ok.injEq, exists_and_left]

/-- The attributes of a block have fields exactly when all their types are supported. -/
theorem exists_attributeFields_iff (rules : EscapeRules) (as : Members Attribute) :
    (∃ fs, attributeFields rules as = .ok fs) ↔ ∀ a ∈ as, a.2.type.Supported := by
  induction as with
  | nil => simp [attributeFields]
  | cons p as ih =>
      obtain ⟨name, a⟩ := p
      rw [List.forall_mem_cons, ← ih, ← a.exists_field_iff rules name]
      simp only [attributeFields_cons_eq_ok]
      constructor
      · intro hexists
        obtain ⟨_, f, others, hf, hothers, -⟩ := hexists
        exact ⟨⟨f, hf⟩, others, hothers⟩
      · intro hboth
        obtain ⟨⟨f, hf⟩, others, hothers⟩ := hboth
        exact ⟨f :: others, f, others, hf, hothers, rfl⟩

/-- The fields of attributes are those of each attribute, in order. -/
theorem forall₂_of_attributeFields {rules : EscapeRules} {as : Members Attribute} {fs : List Field}
    (h : attributeFields rules as = .ok fs) :
    List.Forall₂ (fun e f => e.2.field rules e.1 = .ok f) as fs := by
  induction as generalizing fs with
  | nil =>
      cases h
      exact .nil
  | cons e as ih =>
      obtain ⟨f, others, hf, hothers, rfl⟩ := attributeFields_cons_eq_ok.1 h
      exact .cons hf (ih hothers)

/-- What each attribute says of its field, the attributes say of their fields. -/
theorem map_of_attributeFields {α : Type} {rules : EscapeRules} {as : Members Attribute}
    {fs : List Field} {view : Field → α} {value : String × Attribute → α}
    (hview : ∀ e f, e.2.field rules e.1 = .ok f → view f = value e)
    (h : attributeFields rules as = .ok fs) : fs.map view = as.map value := by
  have hfields := forall₂_of_attributeFields h
  clear h
  induction hfields with
  | nil => rfl
  | cons hf _ ih => rw [List.map_cons, List.map_cons, hview _ _ hf, ih]

/-- The names of the fields are those of the attributes, escaped. -/
theorem names_of_attributeFields {rules : EscapeRules} {as : Members Attribute} {fs : List Field}
    (h : attributeFields rules as = .ok fs) : fs.map Field.name = as.names.map rules.escape := by
  rw [Members.names, List.map_map]
  exact map_of_attributeFields (fun _ _ hf => (Attribute.field_cases hf).1) h

namespace Flatten

variable {rules : EscapeRules} {scope : Option String} {name : String} {block : Block}

/-- A translated block has the fields of its attributes and then those of its block types. -/
theorem translate_eq_ok {r : Record} :
    translate rules scope name block = .ok r ↔
      ∃ fs, attributeFields rules block.attributes = .ok fs ∧
        Record.ofFields .struct (fs ++ nestedFields rules scope name block.blockTypes) = .ok r := by
  simp only [translate, bind_eq_ok, mapError_eq_ok]

/-- A block translates exactly when its attribute types are supported and its field names are
distinct. -/
theorem exists_translate_iff :
    (∃ r, translate rules scope name block = .ok r) ↔
      (∀ a ∈ block.attributes, a.2.type.Supported) ∧ (fieldNames rules block).Nodup := by
  have hnested : (nestedFields rules scope name block.blockTypes).map Field.name =
      block.blockTypes.names.map rules.escape := by
    simp [nestedFields, nestedField, Members.names, List.map_map, Function.comp_def]
  have hnames : ∀ fs, attributeFields rules block.attributes = .ok fs →
      (fs ++ nestedFields rules scope name block.blockTypes).map Field.name =
        fieldNames rules block := by
    intro fs hfs
    rw [List.map_append, names_of_attributeFields hfs, hnested, fieldNames, List.map_append]
  rw [← exists_attributeFields_iff rules]
  constructor
  · intro hexists
    obtain ⟨r, hr⟩ := hexists
    obtain ⟨fs, hfs, hr⟩ := translate_eq_ok.1 hr
    refine ⟨⟨fs, hfs⟩, ?_⟩
    rw [← hnames fs hfs]
    exact (Record.exists_ofFields_iff _ _).1 ⟨r, hr⟩
  · intro hboth
    obtain ⟨⟨fs, hfs⟩, hnodup⟩ := hboth
    rw [← hnames fs hfs] at hnodup
    obtain ⟨r, hr⟩ := (Record.exists_ofFields_iff .struct _).2 hnodup
    exact ⟨r, translate_eq_ok.2 ⟨fs, hfs, hr⟩⟩

end Flatten

/-! ## declarations -/

/-- A block in its place, and the key under which its record is registered. -/
structure Declaration where
  key : QualifiedName
  /-- The scope that the block hands down to its children, with its name. -/
  scope : Option String
  name : String
  block : Block

namespace Declaration

/-- The record that the block translates to, or why there is none. -/
def record (rules : EscapeRules) (d : Declaration) : Except ExportError Record :=
  Flatten.translate rules d.scope d.name d.block

def entry (rules : EscapeRules) (d : Declaration) : Except ExportError Registry.Entry :=
  (d.record rules).map fun r => (d.key, .record r)

/-- A declaration has an entry when it has a record. -/
theorem entry_eq_ok {rules : EscapeRules} {d : Declaration} {e : Registry.Entry} :
    d.entry rules = .ok e ↔ ∃ r, d.record rules = .ok r ∧ e = (d.key, .record r) := by
  unfold entry
  cases d.record rules <;> simp [Except.map, eq_comm]

end Declaration

namespace Flatten

mutual
/-- The declarations of all blocks nested in the block `name`; a block comes after the blocks
nested in it. -/
def nested (scope : Option String) (name : String) : Block → List Declaration
  | .mk _ blockTypes => nestedAll scope name blockTypes
/-- The declarations of these block types of the block `name`, and of all nested in them. -/
def nestedAll (scope : Option String) (name : String) :
    List (String × Nesting × Block) → List Declaration
  | [] => []
  | (child, _, block) :: rest =>
    nested (some (childScope scope name)) child block ++
      ⟨.nested scope name child, some (childScope scope name), child, block⟩ ::
        nestedAll scope name rest
end

/-- The declarations of the outermost block `name`, which comes last, and of all nested in it. -/
def declarations (scope : Option String) (name : String) (block : Block) : List Declaration :=
  nested scope name block.inNameOrder ++ [⟨.details name, scope, name, block.inNameOrder⟩]

end Flatten

end ProviderTypes
