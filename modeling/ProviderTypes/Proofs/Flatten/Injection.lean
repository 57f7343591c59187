import ProviderTypes.Export
import ProviderTypes.Flatten.MetaAttributes
import ProviderTypes.Proofs.Flatten.Replay
import ProviderTypes.Proofs.Flatten.SchemaNames
import ProviderTypes.Proofs.Members.Writing

/-!
# ProviderTypes.Proofs.Flatten.Injection

What the meta attributes change of a resource.  They are added to the attributes
that the block declares, each unless the block declares it itself, and adding them
again changes nothing.

A block that flattens on its own registers the same keys with the meta attributes as
without them, with the same containers but for its own record, which gets a field for
each added attribute in the order of the names (`injection_conservative`).  There is
one condition: all fields of a record have names of their own, so the added
attributes must not have the field name of another attribute or of a nested block
type.  A block that nests a block type `count` flattens without the meta attributes
only (`not_forall_injection_flattens`).
-/

namespace ProviderTypes

/-! ## members in order -/

namespace Members.Sorts

variable {α : Type} {s t m n : Members α}

/-- Sorted members are in the order of their names. -/
theorem pairwise (h : s.Sorts m) : s.Pairwise fun a b => codePoints a.1 < codePoints b.1 := by
  have hincreasing := h.increasing
  rwa [Members.names, List.pairwise_map] at hincreasing

/-- Members in any order are sorted alike. -/
theorem trans_perm (h : s.Sorts m) (hperm : m.Perm n) : s.Sorts n :=
  ⟨h.perm.trans hperm, h.increasing⟩

/-- Sorting and leaving out may be done in either order. -/
theorem filter (h : s.Sorts m) (p : String × α → Bool) :
    Members.Sorts (List.filter p s) (List.filter p m) where
  perm := h.perm.filter p
  increasing := List.pairwise_map.2 (h.pairwise.filter p)

/-- There is one order of members with distinct names. -/
theorem unique (hs : s.Sorts m) (ht : t.Sorts m) : s = t :=
  (hs.perm.trans ht.perm.symm).eq_of_pairwise
    (fun _ _ _ _ hab hba => absurd hba (List.lt_asymm hab)) hs.pairwise ht.pairwise

end Members.Sorts

/-! ## the injected block -/

namespace Block

/-- The meta attributes that the block does not declare itself. -/
def addedAttributes (block : Block) : Members Attribute :=
  metaAttributes.filter fun e => e.1 ∉ block.attributes.names

variable {block : Block}

/-- A block has no attribute twice. -/
theorem nodup_attributes (h : block.Distinct) : block.attributes.names.Nodup := by
  cases h with
  | mk hattributes _ _ => exact hattributes

/-- A block has no block type twice. -/
theorem nodup_blockTypes (h : block.Distinct) : block.blockTypes.names.Nodup := by
  cases h with
  | mk _ hblockTypes _ => exact hblockTypes

/-- A block with meta-attributes has its own attributes and those that are added. -/
theorem attributes_withMetaAttributes_perm (h : block.attributes.names.Nodup) :
    block.withMetaAttributes.attributes.Perm (block.addedAttributes ++ block.attributes) :=
  Members.putAll_perm (by decide) h

/-- Meta-attributes are added once. -/
theorem withMetaAttributes_withMetaAttributes (h : block.attributes.names.Nodup) :
    block.withMetaAttributes.withMetaAttributes = block.withMetaAttributes := by
  have hagain : Members.putAll metaAttributes (Members.putAll metaAttributes block.attributes) =
      Members.putAll metaAttributes block.attributes := Members.putAll_putAll (by decide) h
  rw [withMetaAttributes, withMetaAttributes, attributes, hagain]
  rfl

/-- An attribute that the block declares is not added. -/
theorem names_not_mem_addedAttributes {name : String} (h : name ∈ block.attributes.names) :
    name ∉ block.addedAttributes.names := by
  intro hadded
  obtain ⟨e, he, rfl⟩ := List.mem_map.1 hadded
  have hnot : e.1 ∉ block.attributes.names := by simpa using (List.mem_filter.1 he).2
  exact hnot h

/-- The meta attributes are written down in the order of their names. -/
theorem sorts_addedAttributes (block : Block) :
    block.addedAttributes.Sorts block.addedAttributes where
  perm := .refl _
  increasing := by
    have hmeta : metaAttributes.Pairwise fun a b => codePoints a.1 < codePoints b.1 := by decide
    exact List.pairwise_map.2 (hmeta.filter _)

/-- In order, the attributes of the injected block are those of the block and between them the added
ones. -/
theorem inNameOrder_withMetaAttributes (h : block.attributes.names.Nodup) :
    (block.withMetaAttributes.attributes.inNameOrder.filter
        fun e => e.1 ∉ block.addedAttributes.names) = block.attributes.inNameOrder ∧
      (block.withMetaAttributes.attributes.inNameOrder.filter
        fun e => e.1 ∈ block.addedAttributes.names) = block.addedAttributes := by
  have hperm := attributes_withMetaAttributes_perm h
  have hinjected : block.withMetaAttributes.attributes.names.Nodup :=
    Members.nodup_putAll (by decide) _
  have hsorts := Members.sorts_inNameOrder hinjected
  have hadded : ∀ e ∈ block.addedAttributes, e.1 ∈ block.addedAttributes.names :=
    fun e he => List.mem_map_of_mem he
  have hown : ∀ e ∈ block.attributes, e.1 ∉ block.addedAttributes.names :=
    fun e he => names_not_mem_addedAttributes (List.mem_map_of_mem he)
  constructor
  · refine ((hsorts.filter _).trans_perm ((hperm.filter _).trans (.of_eq ?_))).unique
      (Members.sorts_inNameOrder h)
    rw [List.filter_append, List.filter_eq_nil_iff.2 (by simpa using hadded),
      List.filter_eq_self.2 (by simpa using hown), List.nil_append]
  · refine ((hsorts.filter _).trans_perm ((hperm.filter _).trans (.of_eq ?_))).unique
      (sorts_addedAttributes block)
    rw [List.filter_append, List.filter_eq_self.2 (by simpa using hadded),
      List.filter_eq_nil_iff.2 (by simpa using hown), List.append_nil]

end Block

/-! ## a new key -/

namespace Registry

variable {r r' : Registry} {key : QualifiedName}

/-- A script of one entry is an insertion. -/
theorem play_entry_eq_ok {e : Entry} :
    r.play [.ok e] = (.ok (), r') ↔ r.insert e.1 e.2 = .ok r' := by
  rw [play]
  cases r.insert e.1 e.2 <;> simp [play]

/-- A new key is granted unless another has its full name. -/
theorem insert_of_absent {c : Container} (h : r.get? key = none) :
    r.insert key c = .ok r' ↔ r.otherOwner? key = none ∧ r' = r.store key c := by
  unfold insert
  cases r.otherOwner? key with
  | none => simp [h, eq_comm]
  | some owner => simp

/-- Which keys there are does not depend on what is stored under them. -/
theorem keys_store_congr (r : Registry) (key : QualifiedName) (c d : Container) :
    (r.store key c).keys = (r.store key d).keys := by
  have hforget : ∀ x, (OrderedMap.insertEntry key x r.entries.entries).map Prod.fst =
      (OrderedMap.insertEntry key () (r.entries.entries.map fun e => (e.1, ()))).map Prod.fst := by
    intro x
    rw [OrderedMap.insertEntry_map (fun _ => ()) key x, List.map_map]
    rfl
  exact (hforget c).trans (hforget d).symm

end Registry

/-! ## fields -/

/-- The name in the schema that a field comes from. -/
def Field.source (f : Field) : String := f.metadata.sourceName.getD ""

variable {rules : EscapeRules} {as : Members Attribute} {fs : List Field}

/-- A field remembers the name of its attribute. -/
theorem Attribute.source_of_field {name : String} {a : Attribute} {f : Field}
    (h : a.field rules name = .ok f) : f.source = name := by
  obtain ⟨-, hsource, -⟩ := Attribute.field_cases h
  rw [Field.source, hsource]
  rfl

/-- The fields remember the names of the attributes. -/
theorem sources_of_attributeFields (h : attributeFields rules as = .ok fs) :
    fs.map Field.source = as.names :=
  map_of_attributeFields (fun _ _ hf => Attribute.source_of_field hf) h

/-- Leaving out attributes leaves out their fields. -/
theorem attributeFields_filter (h : attributeFields rules as = .ok fs) (p : String → Bool) :
    attributeFields rules (as.filter fun e => p e.1) = .ok (fs.filter fun f => p f.source) := by
  induction as generalizing fs with
  | nil =>
      cases h
      rfl
  | cons e as ih =>
      obtain ⟨name, a⟩ := e
      obtain ⟨f, others, hf, hothers, rfl⟩ := attributeFields_cons_eq_ok.1 h
      have hsource : f.source = name := Attribute.source_of_field hf
      rw [List.filter_cons, List.filter_cons, hsource]
      split
      · exact attributeFields_cons_eq_ok.2 ⟨f, _, hf, ih hothers, rfl⟩
      · exact ih hothers

/-- An attribute that may be missing has a field that may be. -/
theorem Attribute.optional_of_field {name : String} {a : Attribute} {f : Field}
    (h : a.field rules name = .ok f) (ha : a.optional = true) : ∃ g, f.value = .option g := by
  obtain ⟨-, -, g, -, hvalue⟩ := Attribute.field_cases h
  exact ⟨g, by simpa [ha] using hvalue⟩

/-- Attributes that may be missing have fields that may be. -/
theorem optional_of_attributeFields (h : attributeFields rules as = .ok fs)
    (has : ∀ e ∈ as, e.2.optional = true) : ∀ f ∈ fs, ∃ g, f.value = .option g := by
  induction as generalizing fs with
  | nil =>
      cases h
      simp
  | cons e as ih =>
      obtain ⟨f, others, hf, hothers, rfl⟩ := attributeFields_cons_eq_ok.1 h
      rw [List.forall_mem_cons] at has ⊢
      exact ⟨Attribute.optional_of_field hf has.1, ih hothers has.2⟩

namespace Flatten

/-- The second list is the first with the fields of these attributes added, which are optional, each
in its place among the names. -/
structure AddsFields (rules : EscapeRules) (as : Members Attribute) (fs gs : List Field) :
    Prop where
  kept : (gs.filter fun f => f.source ∉ as.names) = fs
  added : attributeFields rules as = .ok (gs.filter fun f => f.source ∈ as.names)
  optional : ∀ f ∈ gs, f.source ∈ as.names → ∃ g, f.value = .option g
  increasing : (gs.map Field.source).Pairwise fun a b => codePoints a < codePoints b

variable {block : Block}

/-- The meta attributes have fields of their own among those of the block. -/
theorem exists_addsFields (hblock : block.attributes.names.Nodup)
    (h : attributeFields rules block.attributes.inNameOrder = .ok fs) :
    ∃ gs, attributeFields rules block.withMetaAttributes.attributes.inNameOrder = .ok gs ∧
      AddsFields rules block.addedAttributes fs gs := by
  have hinjected : block.withMetaAttributes.attributes.names.Nodup :=
    Members.nodup_putAll (by decide) _
  have hsorts := Members.sorts_inNameOrder hinjected
  obtain ⟨hothers, hadded⟩ := Block.inNameOrder_withMetaAttributes hblock
  have hsupported : ∀ a ∈ block.withMetaAttributes.attributes.inNameOrder, a.2.type.Supported := by
    intro a ha
    rw [(hsorts.perm.trans (Block.attributes_withMetaAttributes_perm hblock)).mem_iff,
      List.mem_append] at ha
    cases ha with
    | inl ha =>
        have hmeta : ∀ a ∈ metaAttributes, a.2.type.Supported := by decide
        exact hmeta a (List.mem_filter.1 ha).1
    | inr ha =>
        have hown := (exists_attributeFields_iff rules _).1 ⟨fs, h⟩
        exact hown a ((Members.inNameOrder_perm hblock).mem_iff.2 ha)
  obtain ⟨gs, hgs⟩ := (exists_attributeFields_iff rules _).2 hsupported
  have hkept := attributeFields_filter hgs (· ∉ block.addedAttributes.names)
  rw [hothers, h, Except.ok.injEq] at hkept
  have hnew := attributeFields_filter hgs (· ∈ block.addedAttributes.names)
  rw [hadded] at hnew
  have hoptional : ∀ e ∈ block.addedAttributes, e.2.optional = true := by
    intro e he
    have hmeta : ∀ e ∈ metaAttributes, e.2.optional = true := by decide
    exact hmeta e (List.mem_filter.1 he).1
  refine ⟨gs, hgs, hkept.symm, hnew, fun f hf hsource => ?_, ?_⟩
  · exact optional_of_attributeFields hnew hoptional f
      (List.mem_filter.2 ⟨hf, decide_eq_true hsource⟩)
  · rw [sources_of_attributeFields hgs]
    exact hsorts.increasing

/-! ## what is registered -/

/-- A block whose attributes have fields has the script of its block types. -/
theorem script_eq_scriptAll {scope : Option String} {name : String}
    (h : attributeFields rules block.attributes = .ok fs) :
    script rules scope name block = scriptAll rules scope name block.blockTypes := by
  cases block with
  | mk as blockTypes =>
      rw [Block.attributes] at h
      rw [script, attributeFaults, h]
      rfl

/-- A block flattens in a workspace when it translates, all blocks nested in it are registered, and
then its own record is. -/
theorem exists_runOn_flattenBlock_iff {scope : Option String} {name : String} {record : Record}
    {r : Registry} {w : Workspace} :
    (∃ w', (flattenBlock rules scope name block).runOn w = (.ok record, w') ∧ w'.registry = r) ↔
      translate rules scope name block.inNameOrder = .ok record ∧
        ∃ m, w.registry.play (script rules scope name block.inNameOrder) = (.ok (), m) ∧
          m.insert (.details name) (.record record) = .ok r := by
  have hperforms := performs_flattenBlock rules scope name block
  have hplay : translate rules scope name block.inNameOrder = .ok record →
      (w.registry.play (scriptOf rules scope name block) = (.ok (), r) ↔
        ∃ m, w.registry.play (script rules scope name block.inNameOrder) = (.ok (), m) ∧
          m.insert (.details name) (.record record) = .ok r) := by
    intro htranslate
    have hentry : Declaration.entry rules ⟨.details name, scope, name, block.inNameOrder⟩ =
        .ok (.details name, .record record) :=
      Declaration.entry_eq_ok.2 ⟨record, htranslate, rfl⟩
    rw [scriptOf, hentry, Registry.play_append_eq_ok]
    simp only [Registry.play_entry_eq_ok]
  constructor
  · intro hexists
    obtain ⟨w', hrun, rfl⟩ := hexists
    obtain ⟨htranslate, hplayed⟩ := hperforms.of_runOn_eq_ok hrun
    exact ⟨htranslate, (hplay htranslate).1 hplayed⟩
  · intro hboth
    obtain ⟨htranslate, hplayed⟩ := hboth
    obtain ⟨log, hrun⟩ := hperforms.played ((hplay htranslate).2 hplayed)
    rw [htranslate] at hrun
    exact ⟨_, hrun, rfl⟩

/-! ## the record of the injected block -/

variable {scope : Option String} {name : String} {record extended : Record}

/-- Meta-attributes leave the block types. -/
theorem blockTypes_inNameOrder_withMetaAttributes (block : Block) :
    block.withMetaAttributes.inNameOrder.blockTypes = block.inNameOrder.blockTypes := by
  cases block
  rfl

/-- Meta-attributes add their names to those of the fields. -/
theorem fieldNames_withMetaAttributes_perm (hblock : block.Distinct) :
    (fieldNames rules block.withMetaAttributes.inNameOrder).Perm
      (block.addedAttributes.names.map rules.escape ++ fieldNames rules block) := by
  have hattributes := Block.nodup_attributes hblock
  have hinjected := Block.nodup_attributes hblock.withMetaAttributes
  have hnames : block.withMetaAttributes.attributes.inNameOrder.names.Perm
      (block.addedAttributes.names ++ block.attributes.names) := by
    have hperm := ((Members.inNameOrder_perm hinjected).trans
      (Block.attributes_withMetaAttributes_perm hattributes)).map Prod.fst
    rwa [List.map_append] at hperm
  have hblockTypes : block.blockTypes.inNameOrder.names.Perm block.blockTypes.names :=
    (Members.inNameOrder_perm (Block.nodup_blockTypes hblock)).map Prod.fst
  rw [fieldNames, attributes_inNameOrder, blockTypes_inNameOrder_withMetaAttributes,
    names_blockTypes_inNameOrder, fieldNames, ← List.map_append, ← List.append_assoc]
  exact (hnames.append hblockTypes).map _

/-- The injected block translates as well, unless the name of a field is taken. -/
theorem exists_translate_withMetaAttributes_iff (hblock : block.Distinct)
    (h : translate rules scope name block.inNameOrder = .ok record) :
    (∃ r, translate rules scope name block.withMetaAttributes.inNameOrder = .ok r) ↔
      (block.addedAttributes.names.map rules.escape ++ fieldNames rules block).Nodup := by
  obtain ⟨fs, hfs, -⟩ := translate_eq_ok.1 h
  rw [attributes_inNameOrder] at hfs
  obtain ⟨gs, hgs, -⟩ := exists_addsFields (Block.nodup_attributes hblock) hfs
  rw [exists_translate_iff, attributes_inNameOrder, ← exists_attributeFields_iff rules,
    (fieldNames_withMetaAttributes_perm hblock).nodup_iff, and_iff_right ⟨gs, hgs⟩]

/-- The record of the injected block has the fields of the added attributes among those of the
block's own, and the same fields of block types. -/
structure Extends (rules : EscapeRules) (block : Block) (record extended : Record) : Prop where
  fields : ∃ fs gs nested, attributeFields rules block.attributes.inNameOrder = .ok fs ∧
    record.fields = fs ++ nested ∧ extended.fields = gs ++ nested ∧
    AddsFields rules block.addedAttributes fs gs

/-- With meta-attributes a block has the record that it has without them, and more fields. -/
theorem extends_of_translate (hblock : block.Distinct)
    (h : translate rules scope name block.inNameOrder = .ok record)
    (hextended : translate rules scope name block.withMetaAttributes.inNameOrder = .ok extended) :
    Extends rules block record extended := by
  obtain ⟨fs, hfs, hrecord⟩ := translate_eq_ok.1 h
  obtain ⟨gs, hgs, hfields⟩ := translate_eq_ok.1 hextended
  rw [attributes_inNameOrder] at hfs hgs
  rw [blockTypes_inNameOrder_withMetaAttributes] at hfields
  obtain ⟨gs', hgs', hadds⟩ := exists_addsFields (Block.nodup_attributes hblock) hfs
  obtain rfl : gs = gs' := Except.ok.inj (hgs.symm.trans hgs')
  exact ⟨fs, gs, _, hfs, Record.ofFields_eq_ok.1 hrecord, Record.ofFields_eq_ok.1 hfields, hadds⟩

/-! ## both runs -/

/-- The two registries differ in the record of the outermost block `name` only. -/
structure SameButDetails (name : String) (r s : Registry) (record extended : Record) : Prop where
  keys : s.keys = r.keys
  nested : ∀ key, key ≠ .details name → s.get? key = r.get? key
  details : r.get? (.details name) = some (.record record)
  extended : s.get? (.details name) = some (.record extended)

/-- Where a block flattens from an empty registry, the injected block does so if it translates, and
registers the same but for its own record. -/
theorem runOn_withMetaAttributes {w w' : Workspace} {policy : DuplicatePolicy}
    (hw : w.registry = .empty policy)
    (h : (flattenBlock rules scope name block).runOn w = (.ok record, w')) :
    translate rules scope name block.inNameOrder = .ok record ∧
      ∀ extended, translate rules scope name block.withMetaAttributes.inNameOrder = .ok extended →
        ∃ w'', (flattenBlock rules scope name block.withMetaAttributes).runOn w =
            (.ok extended, w'') ∧
          SameButDetails name w'.registry w''.registry record extended := by
  obtain ⟨htranslate, m, hplay, hinsert⟩ := exists_runOn_flattenBlock_iff.1 ⟨w', h, rfl⟩
  refine ⟨htranslate, fun extended hextended => ?_⟩
  obtain ⟨fs, hfs, -⟩ := translate_eq_ok.1 htranslate
  obtain ⟨gs, hgs, -⟩ := translate_eq_ok.1 hextended
  rw [script_eq_scriptAll hfs, ← blockTypes_inNameOrder_withMetaAttributes,
    ← script_eq_scriptAll hgs] at hplay
  have habsent : m.get? (.details name) = none := by
    rw [get?_details_of_play_script hplay, hw]
    rfl
  obtain ⟨howner, hstore⟩ := (Registry.insert_of_absent habsent).1 hinsert
  have hinsert' := (Registry.insert_of_absent (c := .record extended) habsent).2 ⟨howner, rfl⟩
  obtain ⟨w'', hrun, hregistry⟩ :=
    exists_runOn_flattenBlock_iff.2 ⟨hextended, m, hplay, hinsert'⟩
  refine ⟨w'', hrun, ?_⟩
  rw [hregistry, hstore]
  refine ⟨m.keys_store_congr _ _ _, fun key hkey => ?_, ?_, ?_⟩
  · rw [Registry.get?_store, Registry.get?_store, if_neg hkey, if_neg hkey]
  · rw [Registry.get?_store, if_pos rfl]
  · rw [Registry.get?_store, if_pos rfl]

/-- Adding the meta attributes is conservative.  The block types and the declared attributes stay as
they are, exactly the undeclared meta attributes are added, and adding them again changes nothing.
If the block flattens from an empty registry, the injected block does so exactly when the fields of
the added attributes have names of their own.  Then the two register the same keys with the same
containers, but for the record of the outermost block, which has the added optional fields in
addition, each in its place among the attributes. -/
theorem injection_conservative (settings : FlatteningSettings) (scope : Option String)
    (name : String) {block : Block} (hblock : block.Distinct) :
    let rules := settings.escapes
    let start : Workspace := { registry := .empty settings.onDuplicate }
    let injected := block.withMetaAttributes
    (injected.blockTypes = block.blockTypes ∧
      injected.attributes.Perm (block.addedAttributes ++ block.attributes) ∧
      injected.withMetaAttributes = injected) ∧
    ∀ record w, (flattenBlock rules scope name block).runOn start = (.ok record, w) →
      ((∃ extended w', (flattenBlock rules scope name injected).runOn start = (.ok extended, w')) ↔
        (block.addedAttributes.names.map rules.escape ++ fieldNames rules block).Nodup) ∧
      ∀ extended w', (flattenBlock rules scope name injected).runOn start = (.ok extended, w') →
        SameButDetails name w.registry w'.registry record extended ∧
          Extends rules block record extended := by
  intro rules start injected
  have hattributes := Block.nodup_attributes hblock
  refine ⟨⟨rfl, Block.attributes_withMetaAttributes_perm hattributes,
    Block.withMetaAttributes_withMetaAttributes hattributes⟩, fun record w hrun => ?_⟩
  obtain ⟨htranslate, hinjected⟩ := runOn_withMetaAttributes rfl hrun
  have hof : ∀ extended w', (flattenBlock rules scope name injected).runOn start =
      (.ok extended, w') → translate rules scope name injected.inNameOrder = .ok extended :=
    fun extended w' h => (exists_runOn_flattenBlock_iff.1 ⟨w', h, rfl⟩).1
  constructor
  · rw [← exists_translate_withMetaAttributes_iff hblock htranslate]
    constructor
    · intro hexists
      obtain ⟨extended, w', h⟩ := hexists
      exact ⟨extended, hof extended w' h⟩
    · intro hexists
      obtain ⟨extended, hextended⟩ := hexists
      obtain ⟨w', h, -⟩ := hinjected extended hextended
      exact ⟨extended, w', h⟩
  · intro extended w' h
    obtain ⟨w'', h', hsame⟩ := hinjected extended (hof extended w' h)
    obtain rfl : w' = w'' := congrArg Prod.snd (h.symm.trans h')
    exact ⟨hsame, extends_of_translate hblock htranslate (hof extended w' h)⟩

/-- A machine that declares a provider of its own and nests a block type. -/
def machine : Block :=
  .mk [("provider", { type := .primitive "bool", required := true }),
      ("image", { type := .primitive "string" })]
    [("disk", {}, .mk [("size", { type := .primitive "number" })] [])]

/-- The machine gets three further fields. -/
theorem injection_conservative_machine :
    let rules := ({} : FlatteningSettings).escapes
    let start : Workspace := { registry := .empty .error }
    let flatten (block : Block) :=
      (flattenBlock rules (some "resource") "machine" block).runOn start
    machine.Distinct ∧
      ∃ record w extended w', flatten machine = (.ok record, w) ∧
        flatten machine.withMetaAttributes = (.ok extended, w') ∧
        SameButDetails "machine" w.registry w'.registry record extended ∧
        Extends rules machine record extended ∧
        extended.fields.map Field.name =
          ["count", "depends_on", "for_each", "image", "provider", "disk"] := by
  intro rules start flatten
  have hdistinct : machine.Distinct := by
    refine .mk (by decide) (by decide) fun e he => ?_
    rw [List.mem_singleton.1 he]
    exact .mk (by decide) List.nodup_nil nofun
  have hok : (flatten machine).1.isOk = true := by decide +kernel
  have hfree : (machine.addedAttributes.names.map rules.escape ++
      fieldNames rules machine).Nodup := by decide +kernel
  have hnames : (flatten machine.withMetaAttributes).1.toOption.map
      (fun r => r.fields.map Field.name) =
        some ["count", "depends_on", "for_each", "image", "provider", "disk"] := by decide +kernel
  obtain ⟨record, hrecord⟩ := exists_eq_ok_of_isOk hok
  have hrun : flatten machine = (.ok record, (flatten machine).2) := Prod.ext hrecord rfl
  obtain ⟨-, hruns⟩ := injection_conservative {} (some "resource") "machine" hdistinct
  obtain ⟨hiff, hboth⟩ := hruns record _ hrun
  obtain ⟨extended, w', hextended⟩ := hiff.2 hfree
  obtain ⟨hsame, hextends⟩ := hboth extended w' hextended
  refine ⟨hdistinct, record, _, extended, w', hrun, hextended, hsame, hextends, ?_⟩
  have hrun' : flatten machine.withMetaAttributes = (.ok extended, w') := hextended
  rw [hrun'] at hnames
  exact Option.some.inj hnames

/-- A block that nests a block type with the name of a meta attribute. -/
def counter : Block := .mk [] [("count", {}, .mk [] [])]

/-- A block that flattens need not do so with the meta attributes: they may take the name of the
field of a block type. -/
theorem not_forall_injection_flattens :
    ¬ ∀ (settings : FlatteningSettings) (name : String) (block : Block), block.Distinct →
      let flatten (block : Block) := (flattenBlock settings.escapes (some Export.resourceScope) name
        block).runOn { registry := .empty settings.onDuplicate }
      (∃ record w, flatten block = (.ok record, w)) →
        ∃ extended w, flatten block.withMetaAttributes = (.ok extended, w) := by
  intro h
  have hdistinct : counter.Distinct := by
    refine .mk List.nodup_nil (by decide) fun e he => ?_
    rw [List.mem_singleton.1 he]
    exact .mk List.nodup_nil List.nodup_nil nofun
  let flatten (block : Block) := (flattenBlock ({} : FlatteningSettings).escapes
    (some Export.resourceScope) "server" block).runOn { registry := .empty .error }
  have hok : (flatten counter).1.isOk = true := by decide +kernel
  have hfails : (flatten counter.withMetaAttributes).1 =
      .error (.format (.repeatedField .struct "count")) := by decide +kernel
  obtain ⟨record, hrecord⟩ := exists_eq_ok_of_isOk hok
  obtain ⟨extended, w, hextended⟩ :=
    h {} "server" counter hdistinct ⟨record, (flatten counter).2, Prod.ext hrecord rfl⟩
  have hextended : (flatten counter.withMetaAttributes).1 = .ok extended :=
    congrArg Prod.fst hextended
  cases hfails.symm.trans hextended

end Flatten

end ProviderTypes
