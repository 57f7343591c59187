import ProviderTypes.Proofs.Flatten.Reordering
import ProviderTypes.Proofs.QualifiedName
import ProviderTypes.Proofs.Rust.WireName

/-!
# ProviderTypes.Proofs.Flatten.SchemaNames

The names of a schema in documents.  The record of a block has a field for each
attribute and then one for each block type, both in the order of their names.  The
field names are escaped; but every field keeps the name of its attribute or block
type in documents, whatever the escapes are (`fields_keep_schema_names`).
-/

namespace ProviderTypes

open Rust (KeepsName Proper)

variable {rules : EscapeRules}

/-- The one has the members of the other, in the order of the characters of their names. -/
structure Members.Sorts {α : Type} (sorted m : Members α) : Prop where
  perm : sorted.Perm m
  increasing : sorted.names.Pairwise fun a b => codePoints a < codePoints b

/-- Sorting brings in no name. -/
theorem Members.Sorts.forall_names {α : Type} {sorted m : Members α} (h : sorted.Sorts m)
    {P : String → Prop} (hm : ∀ name ∈ m.names, P name) : ∀ name ∈ sorted.names, P name :=
  fun name hname => hm name ((h.perm.map Prod.fst).mem_iff.1 hname)

/-- Members with distinct names are sorted by their names. -/
theorem Members.sorts_inNameOrder {α : Type} {m : Members α} (hm : m.names.Nodup) :
    m.inNameOrder.Sorts m where
  perm := inNameOrder_perm hm
  increasing := List.pairwise_map.2
    ((OrderedMap.ofList m).increasing.imp fun h => codePoints_lt_of_compare h)

/-! ## attributes -/

/-- The field of an attribute: optional exactly when the user may leave the attribute out or the
provider computes it. -/
structure Attribute.IsField (name : String) (a : Attribute) (f : Field) : Prop where
  value : ∃ g, a.type.format = .ok g ∧
    f.value = if a.optional || a.computed then .option g else g
  optional_iff : (∃ g, f.value = .option g) ↔ a.optional = true ∨ a.computed = true
  keepsName : KeepsName f name

/-- No scalar is optional. -/
theorem scalarFormat?_ne_option (tag : String) (g : Format) :
    scalarFormat? tag ≠ some (.option g) := by
  unfold scalarFormat?
  repeat' split
  all_goals simp

/-- No type is optional by itself. -/
theorem AttributeType.format_ne_option (t : AttributeType) (g : Format) :
    t.format ≠ .ok (.option g) := by
  cases t with
  | primitive tag =>
      rw [format]
      cases hf : scalarFormat? tag with
      | some f =>
          intro heq
          rw [Except.ok.inj heq] at hf
          exact scalarFormat?_ne_option tag g hf
      | none =>
          by_cases hsequence : isSequenceTag tag = true <;>
            by_cases hmap : isMapTag tag = true <;> simp [hsequence, hmap]
  | tagged tag rest =>
      rw [format]
      by_cases hsequence : isSequenceTag tag = true <;>
        by_cases hmap : isMapTag tag = true <;> simp [hsequence, hmap]

/-- What an attribute with a proper name is translated to is its field. -/
theorem Attribute.isField {name : String} {a : Attribute} {f : Field}
    (h : a.field rules name = .ok f) (hname : Proper name) : a.IsField name f := by
  obtain ⟨-, hsource, g, hg, hvalue⟩ := Attribute.field_cases h
  have hne : ∀ g', g ≠ .option g' := fun g' heq => a.type.format_ne_option g' (heq ▸ hg)
  refine ⟨⟨g, hg, hvalue⟩, ?_, Rust.keepsName hsource hname⟩
  rw [hvalue]
  cases a.optional <;> cases a.computed <;> simp [hne]

/-- The fields of attributes are in the order of the attributes. -/
theorem forall₂_attributeFields {as : Members Attribute} {fs : List Field}
    (h : attributeFields rules as = .ok fs)
    (hnames : ∀ name ∈ as.names, Proper name) :
    List.Forall₂ (fun e f => Attribute.IsField e.1 e.2 f) as fs := by
  have hproper : ∀ e ∈ as, Proper e.1 := fun e he => hnames e.1 (List.mem_map_of_mem he)
  have hfields := (List.forall₂_and_left _ _).2 ⟨hproper, forall₂_of_attributeFields h⟩
  exact hfields.imp fun _ _ hboth => Attribute.isField hboth.2 hboth.1

namespace Flatten

/-! ## block types -/

/-- The field of the block type `child` nested in the block `name`: it refers to the entry of the
block type. -/
structure IsNestedField (r : Registry) (scope : Option String) (name child : String) (f : Field) :
    Prop where
  value : f.value = .option (.seq (.nestedRef scope name child))
  registered : .nested scope name child ∈ r.keys
  keepsName : KeepsName f child

/-- Every block type is registered. -/
theorem exists_mem_nestedAll {scope : Option String} {name child : String}
    {blockTypes : Members (Nesting × Block)} (h : child ∈ blockTypes.names) :
    ∃ d ∈ nestedAll scope name blockTypes, d.key = .nested scope name child := by
  induction blockTypes with
  | nil => contradiction
  | cons e rest ih =>
      obtain ⟨other, nesting, block⟩ := e
      simp only [nestedAll, List.mem_append, List.mem_cons]
      cases List.mem_cons.1 h with
      | inl h => exact ⟨_, Or.inr (Or.inl rfl), by rw [h]⟩
      | inr h =>
          obtain ⟨d, hd, hkey⟩ := ih h
          exact ⟨d, Or.inr (Or.inr hd), hkey⟩

/-- The block types nested in a block are registered once the script of the block is played. -/
theorem mem_keys_of_play_script {scope : Option String} {name child : String} {block : Block}
    {r r' : Registry} (h : r.play (script rules scope name block) = (.ok (), r'))
    (hchild : child ∈ block.blockTypes.names) : .nested scope name child ∈ r'.keys := by
  obtain ⟨d, hd, hkey⟩ : ∃ d ∈ nested scope name block, d.key = .nested scope name child := by
    cases block with
    | mk as blockTypes => exact exists_mem_nestedAll hchild
  obtain ⟨es, hes, hfold⟩ := Registry.play_eq_ok.1 h
  have hentry : d.entry rules ∈ script rules scope name block := entry_mem_script _ _ _ d hd
  rw [hes] at hentry
  obtain ⟨e, he, heq⟩ := List.mem_map.1 hentry
  obtain ⟨c, -, rfl⟩ := Declaration.entry_eq_ok.1 heq.symm
  rw [← hkey]
  exact (Registry.enters_insert.mem_keys_foldlM hfold).2 (Or.inl (List.mem_map_of_mem he))

/-! ## records -/

/-- The source gives the two fields different names in documents. -/
def Apart (f g : Field) : Prop :=
  ∀ (s : GeneratorSettings) (known : List String) (pub name : String),
    Rust.WireName (Rust.fieldLines s known pub f) f.name name →
      ¬ Rust.WireName (Rust.fieldLines s known pub g) g.name name

/-- Fields that keep distinct names are told apart. -/
theorem apart_of_keepsName {names : List String} {fields : List Field}
    (h : List.Forall₂ (fun name f => KeepsName f name) names fields) (hnames : names.Nodup) :
    fields.Pairwise Apart := by
  obtain ⟨hlength, hkeeps⟩ := List.forall₂_iff_get.1 h
  rw [List.pairwise_iff_getElem]
  intro i j hi hj hij s known pub name hname hname'
  have hfirst : name = names[i] := (hkeeps i (by omega) hi s known pub name).1 hname
  have hsecond : name = names[j] := (hkeeps j (by omega) hj s known pub name).1 hname'
  have hindex : i = j := hnames.getElem_inj_iff.1 (hfirst.symm.trans hsecond)
  omega

theorem attributes_inNameOrder (block : Block) :
    block.inNameOrder.attributes = block.attributes.inNameOrder := by
  cases block
  rfl

theorem names_blockTypes_inNameOrder (block : Block) :
    block.inNameOrder.blockTypes.names = block.blockTypes.inNameOrder.names := by
  cases block with
  | mk as bs =>
      rw [Block.inNameOrder, Block.blockTypes, inNameOrderAll_eq, Members.inNameOrder_mapValues,
        Members.names_mapValues]
      rfl

/-- The record of a block keeps the names of its schema in documents, whatever the escapes are.  Its
fields are those of the attributes and then those of the block types, both in the order of their
names.  No two of them have one name in documents. -/
theorem fields_keep_schema_names {scope : Option String} {name : String} {block : Block}
    {r : Record} {w w' : Workspace} (hblock : block.Distinct)
    (hattributes : ∀ n ∈ block.attributes.names, Proper n)
    (hblockTypes : ∀ n ∈ block.blockTypes.names, Proper n)
    (h : (record rules scope name block.inNameOrder).runOn w = (.ok r, w')) :
    ∃ (as : Members Attribute) (bs : Members (Nesting × Block)) (fs gs : List Field),
      as.Sorts block.attributes ∧ bs.Sorts block.blockTypes ∧ r.fields = fs ++ gs ∧
        List.Forall₂ (fun e f => Attribute.IsField e.1 e.2 f) as fs ∧
        List.Forall₂ (fun e f => IsNestedField w'.registry scope name e.1 f) bs gs ∧
        r.fields.Pairwise Apart := by
  obtain ⟨has, hbs⟩ : block.attributes.names.Nodup ∧ block.blockTypes.names.Nodup := by
    cases hblock with
    | mk has hbs _ => exact ⟨has, hbs⟩
  have hasSorts := Members.sorts_inNameOrder has
  have hbsSorts := Members.sorts_inNameOrder hbs
  obtain ⟨htranslate, hplay⟩ := (performs_record block.inNameOrder scope name).of_runOn_eq_ok h
  obtain ⟨-, hnodup⟩ := exists_translate_iff.1 ⟨r, htranslate⟩
  obtain ⟨fs, hfs, hr⟩ := translate_eq_ok.1 htranslate
  rw [Record.ofFields_eq_ok, nestedFields_eq (names_blockTypes_inNameOrder block)] at hr
  rw [attributes_inNameOrder] at hfs
  have hfields := forall₂_attributeFields hfs (hasSorts.forall_names hattributes)
  have hnested : List.Forall₂ (fun e f => IsNestedField w'.registry scope name e.1 f)
      block.blockTypes.inNameOrder
      (nestedFields rules scope name block.blockTypes.inNameOrder) := by
    rw [nestedFields, List.forall₂_map_right_iff, List.forall₂_same]
    intro e he
    have hchild : e.1 ∈ block.blockTypes.inNameOrder.names := List.mem_map_of_mem he
    refine ⟨rfl, ?_, Rust.keepsName rfl (hbsSorts.forall_names hblockTypes _ hchild)⟩
    rw [← names_blockTypes_inNameOrder] at hchild
    exact mem_keys_of_play_script hplay hchild
  refine ⟨_, _, fs, _, hasSorts, hbsSorts, hr, hfields, hnested, ?_⟩
  have hkeeps : List.Forall₂ (fun n f => KeepsName f n)
      (block.attributes.inNameOrder.names ++ block.blockTypes.inNameOrder.names) r.fields := by
    rw [hr]
    exact List.rel_append (List.forall₂_map_left_iff.2 (hfields.imp fun _ _ h => h.keepsName))
      (List.forall₂_map_left_iff.2 (hnested.imp fun _ _ h => h.keepsName))
  -- Names that are escaped alike would be refused, so the names of the schema are distinct.
  apply apart_of_keepsName hkeeps
  rw [fieldNames, attributes_inNameOrder, names_blockTypes_inNameOrder] at hnodup
  exact hnodup.of_map

/-- Escapes that change keywords, one of them in a way of its own. -/
def escaping : EscapeRules :=
  { reservedWords := .ofNames ["self", "type"]
    reservedWordEscape := "kw_\x7bname\x7d"
    pathKeywords := .ofNames ["loop"] }

/-- A block whose names are keywords, but for one. -/
def keywords : Block :=
  .mk [("type", { type := .primitive "string" }),
      ("self", { type := .tagged "map" [.string "bool"], computed := true }),
      ("name", { type := .primitive "number", optional := true })]
    [("loop", {}, .mk [] [])]

/-- The fields of this block have escaped names, and names of their own in documents. -/
theorem fields_keep_schema_names_keywords :
    ∃ r w', (record escaping none "box" keywords.inNameOrder).runOn ⟨.empty .error, {}, []⟩ =
        (.ok r, w') ∧
      r.fields.map Field.name = ["name", "kw_self", "kw_type", "loop_"] ∧
      r.fields.Pairwise Apart := by
  have hdistinct : keywords.Distinct := by
    refine .mk (by decide) (by decide) fun e he => ?_
    rw [List.mem_singleton.1 he]
    exact .mk List.nodup_nil List.nodup_nil nofun
  have hnames : ((record escaping none "box" keywords.inNameOrder).runOn
      ⟨.empty .error, {}, []⟩).1.toOption.map (fun r => r.fields.map Field.name) =
        some ["name", "kw_self", "kw_type", "loop_"] := by decide +kernel
  cases h : (record escaping none "box" keywords.inNameOrder).runOn ⟨.empty .error, {}, []⟩ with
  | mk result w' =>
      cases result with
      | error e => simp [h, Except.toOption] at hnames
      | ok r =>
          obtain ⟨as, bs, fs, gs, -, -, -, -, -, hapart⟩ :=
            fields_keep_schema_names hdistinct (by decide) (by decide) h
          simp only [h, Except.toOption, Option.map_some, Option.some.injEq] at hnames
          exact ⟨r, w', rfl, hnames, hapart⟩

end Flatten

end ProviderTypes
