import ProviderTypes.Flatten.MetaAttributes
import ProviderTypes.Proofs.Members.Writing

/-!
# ProviderTypes.Proofs.Schema.Reordering

Schemas that are equal as nested mappings.  The one is the other reordered when
both give every name the same contents, at every depth: the providers, their
resources and data sources, the attributes and block types of every block, and the
members of objects in the parameters of types.  Nothing is said about the order in
which names stand.

`Schema.Distinct` says that no mapping of the schema has a name twice, as is the
case of every schema that is read from a text (`Schema.distinct_ofText`).  The meta
attributes keep both: what they are added to is still reordered, and still has
distinct names.
-/

namespace ProviderTypes

/-! ## attributes -/

/-- Values that differ in the order of members only. -/
inductive Json.Reordered : Json → Json → Prop where
  | refl (v : Json) : Reordered v v
  | array {items others : List Json} (h : List.Forall₂ Reordered items others) :
      Reordered (.array items) (.array others)
  | object {members others : Members Json}
      (h : ∀ name, Option.Rel Reordered (members.get? name) (others.get? name)) :
      Reordered (.object members) (.object others)

/-- Types with one tag, whose parameters are reordered. -/
inductive AttributeType.Reordered : AttributeType → AttributeType → Prop where
  | primitive (tag : String) : Reordered (.primitive tag) (.primitive tag)
  | tagged (tag : String) {rest others : List Json} (h : List.Forall₂ Json.Reordered rest others) :
      Reordered (.tagged tag rest) (.tagged tag others)

/-- Attributes that differ in the order within their types only. -/
structure Attribute.Reordered (a b : Attribute) : Prop where
  type : a.type.Reordered b.type
  others : b = { a with type := b.type }

theorem AttributeType.Reordered.refl (t : AttributeType) : t.Reordered t := by
  cases t with
  | primitive tag => exact .primitive tag
  | tagged tag rest => exact .tagged tag (List.forall₂_same.2 fun v _ => .refl v)

theorem Attribute.Reordered.refl (a : Attribute) : a.Reordered a := ⟨.refl a.type, rfl⟩

/-! ## blocks -/

/-- Blocks with the same attributes and block types under the same names. -/
inductive Block.Reordered : Block → Block → Prop where
  | mk {as as' : Members Attribute} {bs bs' : Members (Nesting × Block)}
      (attributes : as.Matches Attribute.Reordered as')
      (nesting : bs.Matches (fun p q => p.1 = q.1) bs')
      (blocks : ∀ name p q, bs.get? name = some p → bs'.get? name = some q → Reordered p.2 q.2) :
      Reordered (.mk as bs) (.mk as' bs')

/-- No name is declared twice, at any depth. -/
inductive Block.Distinct : Block → Prop where
  | mk {as : Members Attribute} {bs : Members (Nesting × Block)} (attributes : as.names.Nodup)
      (blockTypes : bs.names.Nodup) (blocks : ∀ e ∈ bs, Distinct e.2.2) : Distinct (.mk as bs)

/-! ## schemas -/

/-- Items of one version, whose blocks are reordered. -/
structure SchemaItem.Reordered (a b : SchemaItem) : Prop where
  version : a.version = b.version
  block : a.block.Reordered b.block

/-- Providers with the same resources and data sources under the same names. -/
structure ProviderSchema.Reordered (p q : ProviderSchema) : Prop where
  provider : p.provider.Reordered q.provider
  resources : p.resources.Matches SchemaItem.Reordered q.resources
  dataSources : p.dataSources.Matches SchemaItem.Reordered q.dataSources

/-- Schemas with the same providers under the same names. -/
structure Schema.Reordered (s t : Schema) : Prop where
  formatVersion : s.formatVersion = t.formatVersion
  providers : s.providers.Matches ProviderSchema.Reordered t.providers

/-- No name is declared twice in a provider. -/
structure ProviderSchema.Distinct (p : ProviderSchema) : Prop where
  provider : p.provider.block.Distinct
  resources : p.resources.names.Nodup
  resourceBlocks : ∀ e ∈ p.resources, e.2.block.Distinct
  dataSources : p.dataSources.names.Nodup
  dataSourceBlocks : ∀ e ∈ p.dataSources, e.2.block.Distinct

/-- No name is declared twice in a schema. -/
structure Schema.Distinct (s : Schema) : Prop where
  providers : s.providers.names.Nodup
  each : ∀ e ∈ s.providers, e.2.Distinct

/-! ## meta attributes -/

namespace Members

variable {α β : Type}

/-- Members that match may be written over the same others. -/
theorem Matches.putAll {R : α → α → Prop} {m n : Members α} (h : Matches R m n)
    (hm : m.names.Nodup) (hn : n.names.Nodup) (hR : ∀ a, R a a) (earlier : Members α) :
    Matches R (earlier.putAll m) (earlier.putAll n) := by
  intro name
  rw [get?_putAll hm, get?_putAll hn]
  have hrel := h name
  revert hrel
  cases m.get? name <;> cases n.get? name <;> intro hrel
  · cases earlier.get? name with
    | none => exact .none
    | some a => exact .some (hR a)
  · cases hrel
  · cases hrel
  · exact hrel

end Members

namespace Block

/-- Blocks that differ in order do so with meta-attributes too. -/
theorem Reordered.withMetaAttributes {a b : Block} (h : a.Reordered b) (ha : a.Distinct)
    (hb : b.Distinct) : a.withMetaAttributes.Reordered b.withMetaAttributes := by
  cases h with
  | mk attributes nesting blocks =>
      cases ha with
      | mk hnames _ _ =>
          cases hb with
          | mk hnames' _ _ =>
              exact .mk (attributes.putAll hnames hnames' Attribute.Reordered.refl _) nesting blocks

/-- Meta-attributes bring in no name twice. -/
theorem Distinct.withMetaAttributes {a : Block} (h : a.Distinct) :
    a.withMetaAttributes.Distinct := by
  cases h with
  | mk attributes blockTypes blocks =>
      have hmeta : (Members.names metaAttributes).Nodup := by decide
      exact .mk (Members.nodup_putAll hmeta _) blockTypes blocks

end Block

/-! ## a schema and its reordering -/

namespace Members

variable {α β : Type}

/-- Two members, in one of two orders. -/
def pair (backwards : Bool) (first second : String) (value : String → α) : Members α :=
  if backwards then [(second, value second), (first, value first)]
  else [(first, value first), (second, value second)]

variable {backwards : Bool} {first second : String} {value : String → α}

theorem eq_of_mem_pair (value : String → α) {e : String × α}
    (h : e ∈ pair backwards first second value) : e.2 = value e.1 := by
  have h : e = (first, value first) ∨ e = (second, value second) := by
    cases backwards with
    | false => simpa [pair] using h
    | true => simpa [pair, or_comm] using h
  cases h with
  | inl h => rw [h]
  | inr h => rw [h]

/-- A pair matches the pair with the names in the other order. -/
theorem matches_pair {R : α → β → Prop} {other : String → β} (h : first ≠ second)
    (hR : ∀ name, R (value name) (other name)) :
    (pair false first second value).Matches R (pair true first second other) := by
  intro name
  simp only [pair, Bool.false_eq_true, if_false, if_true, get?_cons, get?_nil]
  by_cases hfirst : name = first
  · rw [if_pos hfirst, if_neg (hfirst.trans_ne h), if_pos hfirst]
    exact .some (hR first)
  · rw [if_neg hfirst, if_neg hfirst]
    split
    · exact .some (hR second)
    · exact .none

end Members

namespace Schema

def turnedAttributes (backwards : Bool) : Members Attribute :=
  Members.pair backwards "port" "cidr" fun name =>
    { type := .primitive "string", description := name }

/-- An item that nests two blocks, each mapping in one of two orders. -/
def turnedItem (backwards : Bool) : SchemaItem :=
  ⟨0, .mk (turnedAttributes backwards)
    (Members.pair backwards "match" "log" fun _ => ({}, .mk (turnedAttributes backwards) []))⟩

/-- A provider with two resources, each mapping in one of two orders. -/
def turnedProvider (backwards : Bool) : ProviderSchema :=
  ⟨turnedItem backwards, Members.pair backwards "rule" "route" fun _ => turnedItem backwards, []⟩

/-- Two providers, each mapping in one of two orders. -/
def turned (backwards : Bool) : Schema :=
  ⟨"1.0", Members.pair backwards "net" "cloud" fun _ => turnedProvider backwards⟩

theorem distinct_turnedItem (backwards : Bool) : (turnedItem backwards).block.Distinct := by
  have hattributes : (turnedAttributes backwards).names.Nodup := by cases backwards <;> decide
  refine .mk hattributes (by cases backwards <;> decide) fun e he => ?_
  rw [Members.eq_of_mem_pair _ he]
  exact .mk hattributes List.nodup_nil nofun

theorem distinct_turnedProvider (backwards : Bool) : (turnedProvider backwards).Distinct := by
  have hitem := distinct_turnedItem backwards
  refine ⟨hitem, by cases backwards <;> decide, fun e he => ?_, List.nodup_nil, nofun⟩
  have he : e.2 = turnedItem backwards :=
    Members.eq_of_mem_pair (fun _ => turnedItem backwards) he
  exact he ▸ hitem

theorem distinct_turned (backwards : Bool) : (turned backwards).Distinct := by
  refine ⟨by cases backwards <;> decide, fun e he => ?_⟩
  have he : e.2 = turnedProvider backwards :=
    Members.eq_of_mem_pair (fun _ => turnedProvider backwards) he
  exact he ▸ distinct_turnedProvider backwards

theorem reordered_turnedItem : (turnedItem false).Reordered (turnedItem true) := by
  have hattributes : (turnedAttributes false).Matches Attribute.Reordered (turnedAttributes true) :=
    Members.matches_pair (by decide) fun name => .refl _
  refine ⟨rfl, .mk hattributes (Members.matches_pair (by decide) fun name => rfl) ?_⟩
  intro name p q hp hq
  have hp : p = ({}, .mk (turnedAttributes false) []) :=
    Members.eq_of_mem_pair _ (Members.mem_of_get? hp)
  have hq : q = ({}, .mk (turnedAttributes true) []) :=
    Members.eq_of_mem_pair _ (Members.mem_of_get? hq)
  rw [hp, hq]
  exact .mk hattributes (fun name => .none) nofun

/-- The schemas differ in order at every level. -/
theorem reordered_turned : (turned false).Reordered (turned true) := by
  have hprovider : (turnedProvider false).Reordered (turnedProvider true) :=
    ⟨reordered_turnedItem, Members.matches_pair (by decide) fun name => reordered_turnedItem,
      fun name => .none⟩
  exact ⟨rfl, Members.matches_pair (by decide) fun name => hprovider⟩

end Schema

end ProviderTypes
