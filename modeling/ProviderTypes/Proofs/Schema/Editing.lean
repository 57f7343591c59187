import Mathlib.Logic.Relation
import ProviderTypes.Proofs.Schema.FirstViolation

/-!
# ProviderTypes.Proofs.Schema.Editing

Changes of a document that make no difference to its reading.  An `Edit` adds a
member that the reader does not know to some part of the document, however deep, or
writes null for a member that is absent there.  Only the type of an attribute may
not be written as null, since its absence is a violation of its own.

Documents that differ by such changes, made and undone in any number, are read as
the same schema or refused for the same violation (`ofJson_eq_of_edits`).  A part
before and after an edit is `Indistinct` to its reader: it has the same violations,
in the same order, and stands for the same.  This goes from the members of a part to
the part (`Indistinct.object`), and so from the place of the edit to the document.
-/

namespace ProviderTypes

namespace Members

variable {α : Type}

/-- What is looked up in two lists of members is looked up in the first, and then in the second. -/
theorem get?_append (before after : Members α) (name : String) :
    get? (before ++ after) name = (before.get? name).or (after.get? name) := by
  induction before with
  | nil => rfl
  | cons p before ih =>
      rw [List.cons_append, get?_cons, get?_cons, ih]
      split <;> rfl

/-- A further member counts for its own name only. -/
theorem get?_append_cons_of_ne {name other : String} (h : other ≠ name) (before after : Members α)
    (a : α) : get? (before ++ (name, a) :: after) other = get? (before ++ after) other := by
  rw [get?_append, get?_append, get?_cons, if_neg h]

/-- A member is found where none of its name comes before. -/
theorem get?_append_cons_self (before after : Members α) (name : String) (a : α) :
    get? (before ++ (name, a) :: after) name = some ((before.get? name).getD a) := by
  rw [get?_append, get?_cons, if_pos rfl]
  cases before.get? name <;> rfl

end Members

namespace Schema

/-! ## edits -/

/-- A member that may be null as well as absent: one that the part has, unless it is the type of an
attribute. -/
def Part.MayBeNull (p : Part) (name : String) : Prop :=
  name ∈ p.members.names ∧ ¬ (p = .attribute ∧ name = "type")

instance (p : Part) (name : String) : Decidable (p.MayBeNull name) :=
  inferInstanceAs (Decidable (_ ∧ _))

/-- One change of a part that makes no difference to its reading. -/
inductive Edit : Part → Json → Json → Prop
  /-- A member that the part does not have is added. -/
  | unknown {p : Part} {before after : Members Json} {name : String} (v : Json)
      (h : name ∉ p.members.names) :
      Edit p (.object (before ++ after)) (.object (before ++ (name, v) :: after))
  /-- An absent member is written as null. -/
  | null {p : Part} {before after : Members Json} {name : String} (h : p.MayBeNull name)
      (habsent : name ∉ Members.names (before ++ after)) :
      Edit p (.object (before ++ after)) (.object (before ++ (name, .null) :: after))
  /-- A member that is a part is changed. -/
  | part {p q : Part} {before after : Members Json} {name : String} {v w : Json}
      (h : p.members.get? name = some (.part q)) (hedit : Edit q v w) :
      Edit p (.object (before ++ (name, v) :: after)) (.object (before ++ (name, w) :: after))
  /-- One of the parts is changed that a member holds under names of the schema. -/
  | parts {p q : Part} {needed : Bool} {before after inner others : Members Json}
      {name key : String} {v w : Json} (h : p.members.get? name = some (.parts q needed))
      (hedit : Edit q v w) :
      Edit p (.object (before ++ (name, .object (inner ++ (key, v) :: others)) :: after))
        (.object (before ++ (name, .object (inner ++ (key, w) :: others)) :: after))

/-! ## what a part stands for -/

/-- What a part is read as. -/
def Part.Meaning : Part → Type
  | .document => Schema
  | .provider => ProviderSchema
  | .item => SchemaItem
  | .block => Block
  | .nestedBlock => Nesting × Block
  | .attribute => Attribute

/-- What a value stands for as a part. -/
def Part.meaning : (p : Part) → Json → p.Meaning
  | .document => reading
  | .provider => providerOf
  | .item => itemOf
  | .block => blockOf
  | .nestedBlock => nestedOf
  | .attribute => attributeOf

/-- The values stand for the same where a member must hold this. -/
def Content.SameMeaning : Content → Json → Json → Prop
  | .value _, v, w => v = w
  | .part p, v, w => p.meaning v = p.meaning w
  | .parts p _, v, w => v.entries.mapValues p.meaning = w.entries.mapValues p.meaning

theorem Content.SameMeaning.refl (c : Content) (v : Json) : c.SameMeaning v v := by
  cases c <;> exact rfl

/-- Values whose members stand for the same do so themselves. -/
theorem Part.meaning_congr : {p : Part} → {v w : Json} →
    (∀ m ∈ p.members, m.2.SameMeaning (v.field m.1) (w.field m.1)) → p.meaning v = p.meaning w
  | .document, v, w, h => by
      simp only [members, List.forall_mem_cons, Content.SameMeaning, meaning, Meaning] at h
      obtain ⟨hversion, hproviders, -⟩ := h
      change reading v = reading w
      simp only [reading, hversion, hproviders]
  | .provider, v, w, h => by
      simp only [members, List.forall_mem_cons, Content.SameMeaning, meaning, Meaning] at h
      obtain ⟨hprovider, hresources, hdataSources, -⟩ := h
      change providerOf v = providerOf w
      simp only [providerOf, hprovider, hresources, hdataSources]
  | .item, v, w, h => by
      simp only [members, List.forall_mem_cons, Content.SameMeaning, meaning, Meaning] at h
      obtain ⟨hversion, hblock, -⟩ := h
      change itemOf v = itemOf w
      simp only [itemOf, hversion, hblock]
  | .block, v, w, h => by
      simp only [members, List.forall_mem_cons, Content.SameMeaning, meaning, Meaning] at h
      obtain ⟨hattributes, hblockTypes, -⟩ := h
      change blockOf v = blockOf w
      simp only [blockOf_eq, hattributes, hblockTypes]
  | .nestedBlock, v, w, h => by
      simp only [members, List.forall_mem_cons, Content.SameMeaning, meaning, Meaning] at h
      obtain ⟨hblock, hmode, hmin, hmax, -⟩ := h
      change nestedOf v = nestedOf w
      simp only [nestedOf, nestingOf, hblock, hmode, hmin, hmax]
  | .attribute, v, w, h => by
      simp only [members, List.forall_mem_cons, Content.SameMeaning] at h
      obtain ⟨htype, hdescription, hrequired, hoptional, hcomputed, hsensitive, hkind, hdeprecated,
        -⟩ := h
      change attributeOf v = attributeOf w
      simp only [attributeOf, htype, hdescription, hrequired, hoptional, hcomputed, hsensitive,
        hkind, hdeprecated]

/-! ## what the reader cannot tell apart -/

/-- The reader of a member cannot tell the values apart, either of which may be absent: they have
the same violations and stand for the same. -/
structure Content.Indistinct (c : Content) (v w : Option Json) : Prop where
  violations : ∀ path, c.violations path v = c.violations path w
  meaning : c.SameMeaning (v.getD .null) (w.getD .null)

namespace Content

theorem Indistinct.refl (c : Content) (v : Option Json) : c.Indistinct v v :=
  ⟨fun _ => rfl, .refl c _⟩

/-- Objects whose members are indistinct are indistinct parts. -/
theorem Indistinct.object {p : Part} {members others : Members Json}
    (h : ∀ m ∈ p.members, m.2.Indistinct (members.get? m.1) (others.get? m.1)) :
    (Content.part p).Indistinct (some (.object members)) (some (.object others)) where
  violations path := by
    rw [Content.violations, Content.violations]
    exact List.flatMap_congr fun m hm => (h m hm).violations _
  meaning := Part.meaning_congr fun m hm => (h m hm).meaning

/-- A part that is replaced by an indistinct one changes nothing for the parts around it. -/
theorem Indistinct.parts {p : Part} {v w : Json} (h : (Content.part p).Indistinct (some v) (some w))
    (needed : Bool) (before after : Members Json) (key : String) :
    (Content.parts p needed).Indistinct (some (.object (before ++ (key, v) :: after)))
      (some (.object (before ++ (key, w) :: after))) where
  violations path := by
    rw [Content.violations, Content.violations]
    simp only [List.flatMap_append, List.flatMap_cons, h.violations]
  meaning := by
    have hmeaning : p.meaning v = p.meaning w := h.meaning
    simp only [SameMeaning, Option.getD_some, Json.entries, Members.mapValues, List.map_append,
      List.map_cons, hmeaning]

/-- The check of a member does not tell whether it is null or absent. -/
def TakesNullAsAbsent : Content → Prop
  | .value fault? => fault? none = fault? (some .null)
  | .part _ | .parts _ _ => True

/-- Where null counts as absent it may stand for a missing member. -/
theorem TakesNullAsAbsent.indistinct {c : Content} (h : c.TakesNullAsAbsent) :
    c.Indistinct none (some .null) := by
  refine ⟨fun path => ?_, .refl c _⟩
  cases c with
  | value fault? =>
      have hfault : fault? none = fault? (some .null) := h
      rw [violations, violations, hfault]
  | part p => rw [violations_part, Option.getD_none]
  | parts p needed =>
      rw [violations, violations]
      · rfl
      · simp
      · simp

end Content

/-- The members that may be null take null as absent. -/
theorem Part.takesNullAsAbsent {p : Part} {m : String × Content} (hm : m ∈ p.members)
    (h : p.MayBeNull m.1) : m.2.TakesNullAsAbsent := by
  revert m
  cases p <;> simp [members, MayBeNull, Content.TakesNullAsAbsent, required, optional]

/-- No part has a member twice. -/
theorem Part.nodup_names_members (p : Part) : p.members.names.Nodup := by
  cases p <;> decide

/-- A member that is replaced by an indistinct one changes nothing for the part. -/
theorem Content.Indistinct.replaced {p : Part} {c : Content} {name : String} {v w : Json}
    (h : c.Indistinct (some v) (some w)) (hname : p.members.get? name = some c)
    (before after : Members Json) :
    (Content.part p).Indistinct (some (.object (before ++ (name, v) :: after)))
      (some (.object (before ++ (name, w) :: after))) := by
  refine .object fun m hm => ?_
  by_cases heq : m.1 = name
  · have hcontent : p.members.get? m.1 = some m.2 := Members.get?_of_mem p.nodup_names_members hm
    rw [heq, hname, Option.some.injEq] at hcontent
    rw [heq, ← hcontent, Members.get?_append_cons_self, Members.get?_append_cons_self]
    -- an earlier member of the name hides both values
    cases before.get? name with
    | none => exact h
    | some u => exact .refl _ _
  · rw [Members.get?_append_cons_of_ne heq, Members.get?_append_cons_of_ne heq]
    exact .refl _ _

/-! ## the reading of edited documents -/

/-- The reader cannot tell a part from the part before an edit. -/
theorem Edit.indistinct {p : Part} {v w : Json} (h : Edit p v w) :
    (Content.part p).Indistinct (some v) (some w) := by
  induction h with
  | @unknown p before after name v hname =>
      refine .object fun m hm => ?_
      have hne : m.1 ≠ name := fun heq => hname (heq ▸ List.mem_map_of_mem hm)
      rw [Members.get?_append_cons_of_ne hne]
      exact .refl _ _
  | @null p before after name hname habsent =>
      refine .object fun m hm => ?_
      by_cases heq : m.1 = name
      · subst heq
        have hnone : (before ++ after).get? m.1 = none := Members.get?_eq_none habsent
        have hbefore : before.get? m.1 = none := by
          rw [Members.get?_append, Option.or_eq_none_iff] at hnone
          exact hnone.1
        rw [hnone, Members.get?_append_cons_self, hbefore]
        exact (Part.takesNullAsAbsent hm hname).indistinct
      · rw [Members.get?_append_cons_of_ne heq]
        exact .refl _ _
  | part hname _ ih => exact ih.replaced hname _ _
  | parts hname _ ih => exact (ih.parts _ _ _ _).replaced hname _ _

/-- An edit that does not matter leaves the answer. -/
theorem Edit.ofJson_eq {v w : Json} (h : Edit .document v w) : ofJson v = ofJson w := by
  have hmeaning : reading v = reading w := h.indistinct.meaning
  have hviolations : violations v = violations w := h.indistinct.violations "$"
  rw [ofJson_eq_verdict, ofJson_eq_verdict, hmeaning, hviolations]

/-- Documents that differ by edits, made and undone in any number, are read as the same schema or
refused for the same violation. -/
theorem ofJson_eq_of_edits {v w : Json} (h : Relation.EqvGen (Edit .document) v w) :
    ofJson v = ofJson w := by
  induction h with
  | rel v w hedit => exact hedit.ofJson_eq
  | refl v => rfl
  | symm v w _ ih => exact ih.symm
  | trans u v w _ _ hfirst hsecond => exact hfirst.trans hsecond

/-- A document whose provider nests this block type. -/
def nestingDocument (nested : Json) : Json :=
  .object [("format_version", .string "1.0"), ("provider_schemas", .object [("dns",
    .object [("provider", .object [("version", .int 0), ("block",
      .object [("block_types", .object [("log", nested)])])])])])]

/-- An edit may be made in a nested block. -/
theorem Edit.within {nested other : Json} (h : Edit .nestedBlock nested other) :
    Edit .document (nestingDocument nested) (nestingDocument other) := by
  have hblock : Edit .block (.object [("block_types", .object [("log", nested)])])
      (.object [("block_types", .object [("log", other)])]) :=
    @Edit.parts .block .nestedBlock false [] [] [] [] "block_types" "log" _ _ rfl h
  have hitem := @Edit.part .item .block [("version", .int 0)] [] "block" _ _ rfl hblock
  have hprovider := @Edit.part .provider .item [] [] "provider" _ _ rfl hitem
  exact @Edit.parts .document .provider true [("format_version", .string "1.0")] [] [] []
    "provider_schemas" "dns" _ _ rfl hprovider

/-- Deep in a document, a count that is null is left out, and a member of blocks is added that the
reader does not know. -/
theorem ofJson_eq_of_edits_nested :
    let counted := nestingDocument (.object [("block", .object []), ("max_items", .null)])
    let described := nestingDocument (.object [("block",
      .object [("description_kind", .string "plain")])])
    Relation.EqvGen (Edit .document) counted described ∧ ofJson counted = ofJson described ∧
      (ofJson described).isOk = true := by
  intro counted described
  have hcount : Edit .nestedBlock (.object [("block", .object [])])
      (.object [("block", .object []), ("max_items", .null)]) :=
    @Edit.null .nestedBlock [("block", .object [])] [] "max_items" (by decide) (by decide)
  have hdescription : Edit .nestedBlock (.object [("block", .object [])])
      (.object [("block", .object [("description_kind", .string "plain")])]) :=
    @Edit.part .nestedBlock .block [] [] "block" _ _ rfl
      (@Edit.unknown .block [] [] "description_kind" _ (by decide))
  have hedits : Relation.EqvGen (Edit .document) counted described :=
    .trans _ _ _ (.symm _ _ (.rel _ _ hcount.within)) (.rel _ _ hdescription.within)
  exact ⟨hedits, ofJson_eq_of_edits hedits, by decide +kernel⟩

end Schema

end ProviderTypes
