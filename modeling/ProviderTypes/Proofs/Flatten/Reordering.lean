import ProviderTypes.Proofs.Flatten.Script
import ProviderTypes.Proofs.Schema.Reordering

/-!
# ProviderTypes.Proofs.Flatten.Reordering

Blocks in which names stand in another order.  A block is put in the order of its
names before anything is registered, so a block and its reordering have the same
script (`scriptOf_reordered`): the same entries with the same metadata, and the
same failure in the same place.

Blocks in order may still differ in the parameters of types, where an object keeps
the order of the document.  What counts is that they are interchangeable: scripts
and records do not depend on which of the two it is.
-/

namespace ProviderTypes

/-- Functions that agree on related members give lists side by side the same images. -/
theorem map_eq_of_forall₂ {α β γ : Type} {R : α → β → Prop} {l : List α} {l' : List β} {f : α → γ}
    {g : β → γ} (h : List.Forall₂ R l l') (hfg : ∀ a b, R a b → f a = g b) : l.map f = l'.map g :=
  map_eq_map_iff_forall₂.2 (h.imp hfg)

theorem flatMap_eq_of_forall₂ {α β γ : Type} {R : α → β → Prop} {l : List α} {l' : List β}
    {f : α → List γ} {g : β → List γ} (h : List.Forall₂ R l l') (hfg : ∀ a b, R a b → f a = g b) :
    l.flatMap f = l'.flatMap g := by
  rw [List.flatMap_def, List.flatMap_def, map_eq_of_forall₂ h hfg]

/-! ## attributes -/

/-- The format of elements looks at texts only, in which nothing can be reordered. -/
theorem elementFormat_reordered {rest others : List Json}
    (h : List.Forall₂ Json.Reordered rest others) : elementFormat rest = elementFormat others := by
  cases h with
  | nil => rfl
  | cons hhead _ =>
      cases hhead with
      | refl v => rfl
      | array _ => rfl
      | object _ => rfl

/-- The format of a type does not depend on the order of its parts. -/
theorem AttributeType.Reordered.format_eq {t t' : AttributeType} (h : t.Reordered t') :
    t.format = t'.format := by
  cases h with
  | primitive tag => rfl
  | tagged tag h => rw [format, format, elementFormat_reordered h]

/-- The field of an attribute does not depend on the order of the parts of its type. -/
theorem Attribute.Reordered.field_eq {a b : Attribute} (h : a.Reordered b) (rules : EscapeRules)
    (name : String) : a.field rules name = b.field rules name := by
  obtain ⟨htype, hothers⟩ := h
  rw [hothers]
  unfold field format
  rw [htype.format_eq]

/-- Attributes in the same order have the same fields. -/
theorem attributeFields_reordered {rules : EscapeRules} {as as' : Members Attribute}
    (h : List.Forall₂ (fun p q => p.1 = q.1 ∧ p.2.Reordered q.2) as as') :
    attributeFields rules as = attributeFields rules as' := by
  induction h with
  | nil => rfl
  | @cons p q as as' hpq _ ih =>
      obtain ⟨name, a⟩ := p
      obtain ⟨name', a'⟩ := q
      obtain ⟨rfl, ha⟩ : name = name' ∧ a.Reordered a' := hpq
      rw [attributeFields, attributeFields, ha.field_eq, ih]

namespace Flatten

variable {rules : EscapeRules} {scope : Option String} {name : String}

/-! ## interchangeable blocks -/

/-- Neither what is registered for the blocks nested in them nor their own records tell the blocks
apart, wherever they stand. -/
def Interchangeable (rules : EscapeRules) (a b : Block) : Prop :=
  ∀ scope name, script rules scope name a = script rules scope name b ∧
    translate rules scope name a = translate rules scope name b

/-- The script of block types is that of each, with its own entry behind. -/
theorem scriptAll_eq_flatMap (rules : EscapeRules) (scope : Option String) (name : String)
    (blockTypes : Members (Nesting × Block)) :
    scriptAll rules scope name blockTypes = blockTypes.flatMap fun e =>
      script rules (some (childScope scope name)) e.1 e.2.2 ++
        [(translate rules (some (childScope scope name)) e.1 e.2.2).map fun r =>
          (.nested scope name e.1, .record r)] := by
  induction blockTypes with
  | nil => rfl
  | cons e rest ih =>
      obtain ⟨child, nesting, block⟩ := e
      rw [scriptAll, ih, List.flatMap_cons, List.append_assoc]
      rfl

/-- The fields for block types depend on their names alone. -/
theorem nestedFields_eq {bs bs' : Members (Nesting × Block)} (h : bs.names = bs'.names) :
    nestedFields rules scope name bs = nestedFields rules scope name bs' := by
  have hnames : ∀ bs : Members (Nesting × Block),
      nestedFields rules scope name bs = bs.names.map (nestedField rules scope name) := by
    intro bs
    rw [nestedFields, Members.names, List.map_map]
    rfl
  rw [hnames, hnames, h]

/-- Blocks whose parts stand side by side are interchangeable when the blocks nested in them are. -/
theorem interchangeable_mk {as as' : Members Attribute} {bs bs' : Members (Nesting × Block)}
    (has : List.Forall₂ (fun p q => p.1 = q.1 ∧ p.2.Reordered q.2) as as')
    (hbs : List.Forall₂ (fun p q => p.1 = q.1 ∧ Interchangeable rules p.2.2 q.2.2) bs bs') :
    Interchangeable rules (.mk as bs) (.mk as' bs') := by
  intro scope name
  have hfields : attributeFields rules as = attributeFields rules as' :=
    attributeFields_reordered has
  have hnames : bs.names = bs'.names := map_eq_of_forall₂ hbs fun _ _ h => h.1
  have hscripts : scriptAll rules scope name bs = scriptAll rules scope name bs' := by
    rw [scriptAll_eq_flatMap, scriptAll_eq_flatMap]
    apply flatMap_eq_of_forall₂ hbs
    intro p q hpq
    obtain ⟨hname, hblock⟩ := hpq
    obtain ⟨hscript, htranslate⟩ := hblock (some (childScope scope name)) q.1
    rw [hname, hscript, htranslate]
  constructor
  · rw [script, script, attributeFaults, attributeFaults, hfields, hscripts]
  · unfold translate
    simp only [Block.attributes, Block.blockTypes, hfields, nestedFields_eq hnames]

/-- Sorting block types sorts within each of them. -/
theorem inNameOrderAll_eq (blockTypes : Members (Nesting × Block)) :
    Block.inNameOrderAll blockTypes = blockTypes.mapValues fun p => (p.1, p.2.inNameOrder) := by
  induction blockTypes with
  | nil => rfl
  | cons e rest ih =>
      obtain ⟨child, nesting, block⟩ := e
      rw [Block.inNameOrderAll, ih]
      rfl

/-- A block and its reordering are interchangeable once they are in order. -/
theorem interchangeable_of_reordered {a b : Block} (h : a.Reordered b) (ha : a.Distinct)
    (hb : b.Distinct) : Interchangeable rules a.inNameOrder b.inNameOrder := by
  induction h with
  | @mk as as' bs bs' attributes nesting blocks ih =>
      cases ha with
      | mk hasNames hbsNames hinner =>
          cases hb with
          | mk hasNames' hbsNames' hinner' =>
              have hblocks : bs.Matches
                  (fun p q => Interchangeable rules p.2.inNameOrder q.2.inNameOrder) bs' :=
                nesting.imp fun name p q hp hq _ => ih name p q hp hq
                  (hinner _ (Members.mem_of_get? hp)) (hinner' _ (Members.mem_of_get? hq))
              rw [Block.inNameOrder, Block.inNameOrder, inNameOrderAll_eq, inNameOrderAll_eq,
                Members.inNameOrder_mapValues, Members.inNameOrder_mapValues]
              apply interchangeable_mk (attributes.inNameOrder hasNames hasNames')
              exact List.forall₂_map_left_iff.2
                (List.forall₂_map_right_iff.2 (hblocks.inNameOrder hbsNames hbsNames'))

/-- A block and its reordering have one script. -/
theorem scriptOf_reordered {a b : Block} (h : a.Reordered b) (ha : a.Distinct) (hb : b.Distinct)
    (rules : EscapeRules) (scope : Option String) (name : String) :
    scriptOf rules scope name a = scriptOf rules scope name b := by
  have hinterchangeable : Interchangeable rules a.inNameOrder b.inNameOrder :=
    interchangeable_of_reordered h ha hb
  obtain ⟨hscript, htranslate⟩ := hinterchangeable scope name
  have hentry : ∀ key, Declaration.entry rules ⟨key, scope, name, a.inNameOrder⟩ =
      Declaration.entry rules ⟨key, scope, name, b.inNameOrder⟩ := by
    intro key
    unfold Declaration.entry Declaration.record
    rw [htranslate]
  rw [scriptOf, scriptOf, hscript, hentry]

end Flatten

end ProviderTypes
