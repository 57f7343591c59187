import ProviderTypes.Proofs.Schema.Grammar

/-!
# ProviderTypes.Proofs.Schema.FirstViolation

The reader accepts exactly the documents of the grammar, and reports the first
violation of any other (`ofJson_accepts_grammar`).

The reader stops at a violation, where the check of the grammar goes on.  What a
reader must answer is the `verdict` on all violations: the first of them, or what
the value stands for.  Reading one thing after another keeps to that
(`bind_eq_verdict`), so it is enough to show it of each value, each part, and each
list of named parts.
-/

namespace ProviderTypes

namespace Schema

variable {α β : Type}

/-! ## verdicts -/

/-- The answer of a reader that knows all violations: the first of them, or the value. -/
def verdict (a : α) : List Violation → Except Violation α
  | [] => .ok a
  | first :: _ => .error first

/-- The verdict is the value when there are no violations. -/
theorem verdict_eq_ok {a b : α} {vs : List Violation} :
    verdict a vs = .ok b ↔ vs = [] ∧ b = a := by
  cases vs with
  | nil => simp [verdict, eq_comm]
  | cons first vs => simp [verdict]

/-- The verdict is the first violation, if there is one. -/
theorem verdict_eq_error {a : α} {e : Violation} {vs : List Violation} :
    verdict a vs = .error e ↔ vs.head? = some e := by
  cases vs with
  | nil => simp [verdict]
  | cons first vs => simp [verdict]

/-- Reading one thing after another gives the first violation of both. -/
theorem bind_eq_verdict {x : Except Violation α} {f : α → Except Violation β} {a : α} {b : β}
    {vs ws : List Violation} (hx : x = verdict a vs) (hf : f a = verdict b ws) :
    x >>= f = verdict b (vs ++ ws) := by
  cases vs with
  | nil =>
      rw [hx, List.nil_append, ← hf]
      rfl
  | cons first vs =>
      rw [hx]
      rfl

/-- Changing the value of a verdict keeps the violations. -/
theorem map_eq_verdict {x : Except Violation α} {f : α → β} {a : α} {vs : List Violation}
    (hx : x = verdict a vs) : (x >>= fun a => pure (f a)) = verdict (f a) vs := by
  have hbind := bind_eq_verdict (f := fun a => pure (f a)) hx (rfl : _ = verdict (f a) [])
  rwa [List.append_nil] at hbind

/-! ## values -/

/-- Reading a text answers with it or with its first violation. -/
theorem readString_eq (path : String) (v : Option Json) :
    readString path (v.getD .null) = verdict ((textOf? (v.getD .null)).getD "")
      ((Content.value (required textFault?)).violations path v) := by
  rw [Content.violations, required]
  cases v.getD .null <;> rfl

/-- Reading a text that may be missing answers with it or with its first violation. -/
theorem readString?_eq (path : String) (v : Option Json) :
    readString? path (v.getD .null) = verdict (textOf? (v.getD .null))
      ((Content.value (optional textFault?)).violations path v) := by
  rw [Content.violations, optional]
  cases v.getD .null <;> rfl

/-- Reading a whole number answers with it or with its first violation. -/
theorem readInt_eq (path : String) (v : Option Json) :
    readInt path (v.getD .null) = verdict (integerOf (v.getD .null))
      ((Content.value (required integerFault?)).violations path v) := by
  rw [Content.violations, required]
  cases v.getD .null <;> rfl

/-- Reading a truth value answers with it or with its first violation. -/
theorem readFlag_eq (path : String) (v : Option Json) :
    readFlag path (v.getD .null) = verdict (flagOf (v.getD .null))
      ((Content.value (optional flagFault?)).violations path v) := by
  rw [Content.violations, optional]
  cases v.getD .null <;> rfl

/-- Reading a count that may be missing answers with it or with its first violation. -/
theorem readCount?_eq (path : String) (v : Option Json) :
    readCount? path (v.getD .null) = verdict (countOf? (v.getD .null))
      ((Content.value (optional countFault?)).violations path v) := by
  rw [Content.violations, optional]
  cases v.getD .null with
  | int n =>
      cases n with
      | ofNat n => rfl
      | negSucc n =>
          have hnegative : countFault? (.int (.negSucc n)) = some .negative :=
            if_pos (Int.negSucc_lt_zero n)
          rw [hnegative]
          rfl
  | _ => rfl

/-- Reading a kind of description answers with it or with its first violation. -/
theorem readDescriptionKind?_eq (path : String) (v : Option Json) :
    readDescriptionKind? path (v.getD .null) = verdict (descriptionKindOf? (v.getD .null))
      ((Content.value (optional descriptionKindFault?)).violations path v) := by
  rw [Content.violations, optional]
  cases v.getD .null with
  | string s =>
      rw [if_neg Json.noConfusion, descriptionKindFault?, descriptionKindOf?, readDescriptionKind?]
      by_cases hplain : s = "plain"
      · rw [hplain]
        rfl
      by_cases hmarkdown : s = "markdown"
      · rw [hmarkdown]
        rfl
      rw [if_neg hplain, if_neg hmarkdown, if_neg (by simp [hplain, hmarkdown])]
      rfl
  | _ => rfl

/-- Reading the type of an attribute answers with it or with its first violation. -/
theorem readType_eq (path : String) (v : Json) :
    readType path v = verdict (typeOf v)
      ((Content.value (present typeFault?)).violations path (some v)) := by
  rw [Content.violations, present]
  cases v with
  | array items =>
      cases items with
      | nil => rfl
      | cons tag rest => cases tag <;> rfl
  | _ => rfl

/-! ## attributes -/

/-- The reader gives the first of all violations of a part, or what the part stands for. -/
def Answers (p : Part) (read : String → Json → Except Violation α) (of : Json → α) (v : Json) :
    Prop :=
  ∀ path, read path v = verdict (of v) ((Content.part p).violations path (some v))

/-- A reader that refuses what is no object answers for a part there. -/
theorem Answers.of_not_object {p : Part} {read : String → Json → Except Violation α}
    {of : Json → α} {v : Json} (hv : ∀ members, v ≠ .object members)
    (hread : ∀ path, read path v = .error ⟨path, .notObject⟩) : Answers p read of v := by
  intro path
  rw [hread, Content.violations]
  · rfl
  · intro members hmembers
    exact hv members (Option.some.inj hmembers)

theorem readObject_bind (path : String) (members : Members Json)
    (f : Members Json → Except Violation β) :
    (readObject path (.object members) >>= f) = f members :=
  rfl

/-- The reader of attributes answers with the attribute or its first violation. -/
theorem answers_readAttribute (v : Json) : Answers .attribute readAttribute attributeOf v := by
  cases v with
  | object members =>
      intro path
      have htypeOf : (attributeOf (.object members)).type =
          typeOf ((Members.get? members "type").getD .null) := rfl
      rw [Content.violations, Part.members, readAttribute, readObject_bind]
      simp only [List.flatMap_cons, List.flatMap_nil]
      cases htype : Members.get? members "type" with
      | none =>
          rw [Content.violations]
          rfl
      | some t =>
          rw [htype, Option.getD_some] at htypeOf
          refine bind_eq_verdict (readType_eq _ t) ?_
          refine bind_eq_verdict (readString?_eq _ _) ?_
          refine bind_eq_verdict (readFlag_eq _ _) ?_
          refine bind_eq_verdict (readFlag_eq _ _) ?_
          refine bind_eq_verdict (readFlag_eq _ _) ?_
          refine bind_eq_verdict (readFlag_eq _ _) ?_
          refine bind_eq_verdict (readDescriptionKind?_eq _ _) ?_
          refine bind_eq_verdict (readFlag_eq _ _) ?_
          rw [← htypeOf]
          rfl
  | _ => exact .of_not_object (by simp) fun _ => rfl

/-! ## named parts -/

/-- All violations of parts under names of the schema. -/
def namedViolations (p : Part) (path : String) (members : Members Json) : List Violation :=
  members.flatMap fun m =>
    nameViolations path m.1 ++ (Content.part p).violations (memberPath path m.1) (some m.2)

/-- The check of a name finds its violation. -/
theorem checkName_eq (path name : String) :
    checkName path name = verdict () (nameViolations path name) := by
  unfold checkName nameViolations
  split
  · rfl
  · rfl

/-- A reader of named parts that checks each name before the part gives the first violation. -/
theorem readNamed_eq {path : String} {p : Part} (read : String → Json → Except Violation α)
    (readList : Members Json → Except Violation (Members α)) {of : Json → α}
    (hnil : readList [] = .ok [])
    (hcons : ∀ name v rest, readList ((name, v) :: rest) = do
      checkName path name
      let first ← read (memberPath path name) v
      let others ← readList rest
      return (name, first) :: others)
    {members : Members Json}
    (hread : ∀ m ∈ members, Answers p read of m.2) :
    readList members = verdict (members.mapValues of) (namedViolations p path members) := by
  induction members with
  | nil => exact hnil
  | cons m rest ih =>
      obtain ⟨hfirst, hrest⟩ := List.forall_mem_cons.1 hread
      rw [hcons, namedViolations, List.flatMap_cons, List.append_assoc]
      refine bind_eq_verdict (checkName_eq path m.1) ?_
      refine bind_eq_verdict (hfirst _) ?_
      exact map_eq_verdict (ih hrest)

/-- A reader of named parts, of which there may be none unless they are needed, gives the first
violation. -/
theorem readParts_eq (needed : Bool) {path : String} {p : Part}
    {readList : Members Json → Except Violation (Members α)} {of : Json → α} {v : Option Json}
    (hlist : readList (v.getD .null).entries =
      verdict ((v.getD .null).entries.mapValues of)
        (namedViolations p path (v.getD .null).entries)) :
    (if !needed && (v.getD .null).isNull then .ok []
      else readObject path (v.getD .null) >>= readList) =
      verdict ((v.getD .null).entries.mapValues of)
        ((Content.parts p needed).violations path v) := by
  cases v with
  | none =>
      rw [Content.violations]
      · cases needed <;> rfl
      · simp
  | some v =>
      cases v with
      | object members =>
          rw [Content.violations, ← namedViolations, if_neg (by simp [Json.isNull])]
          exact hlist
      | _ =>
          rw [Content.violations]
          · cases needed <;> rfl
          · simp

/-- Reading attributes answers with all of them or with the first violation. -/
theorem readAttributes_eq (path : String) (v : Option Json) :
    readAttributes path (v.getD .null) =
      verdict ((v.getD .null).entries.mapValues attributeOf)
        ((Content.parts .attribute false).violations path v) :=
  readParts_eq false <| readNamed_eq readAttribute (readAttributeList path) rfl (fun _ _ _ => rfl)
    fun m _ => answers_readAttribute m.2

/-! ## blocks -/

/-- Reading how blocks are nested answers with it or with the first violation. -/
theorem readNesting_eq (path : String) (members : Members Json) :
    readNesting path members = verdict (nestingOf (.object members))
      (Part.nestedBlock.members.tail.flatMap fun m =>
        m.2.violations (memberPath path m.1) (Members.get? members m.1)) := by
  rw [Part.members, List.tail_cons, readNesting]
  simp only [List.flatMap_cons, List.flatMap_nil, List.append_nil]
  refine bind_eq_verdict (readString?_eq _ _) ?_
  refine bind_eq_verdict (readCount?_eq _ _) ?_
  exact map_eq_verdict (readCount?_eq _ _)

/-- The reader of a nested block answers if that of its block does. -/
theorem answers_readNested {v : Json}
    (hblock : Answers .block readBlock blockOf (v.field "block")) :
    Answers .nestedBlock readNested nestedOf v := by
  cases v with
  | object members =>
      intro path
      have hmembers : Part.nestedBlock.members =
        ("block", .part .block) :: Part.nestedBlock.members.tail := rfl
      rw [Content.violations, readNested, readBlockIn_eq, hmembers, List.flatMap_cons,
        violations_part]
      refine bind_eq_verdict (hblock (memberPath path "block")) ?_
      exact map_eq_verdict (readNesting_eq path members)
  | _ => exact .of_not_object (by simp) fun _ => rfl

/-- Reading block types answers with all of them if the reader of each block does. -/
theorem readBlockTypes_eq {v : Option Json}
    (hblocks : ∀ m ∈ (v.getD .null).entries, Answers .block readBlock blockOf (m.2.field "block"))
    (path : String) :
    readBlockTypes path (v.getD .null) =
      verdict ((v.getD .null).entries.mapValues nestedOf)
        ((Content.parts .nestedBlock false).violations path v) := by
  rw [← readParts_eq false (readNamed_eq readNested (readBlockTypeList path) rfl (fun _ _ _ => rfl)
    fun m hm => answers_readNested (hblocks m hm))]
  cases v.getD .null <;> rfl

/-- The reader of blocks answers with the block or its first violation. -/
theorem answers_readBlock (v : Json) : Answers .block readBlock blockOf v := by
  cases v with
  | object members =>
      intro path
      have hblocks : ∀ m ∈ (Json.member members "block_types").entries,
          Answers .block readBlock blockOf (m.2.field "block") := by
        intro m hm
        have hsize : sizeOf (m.2.field "block") < sizeOf (Json.object members) := sizeOf_block_lt hm
        exact answers_readBlock (m.2.field "block")
      rw [blockOf_eq, Content.violations, readBlock, readBlockTypesIn_eq, Part.members]
      simp only [List.flatMap_cons, List.flatMap_nil, List.append_nil]
      refine bind_eq_verdict (readAttributes_eq _ _) ?_
      exact map_eq_verdict (readBlockTypes_eq hblocks _)
  | _ => exact .of_not_object (by simp) fun _ => rfl
termination_by sizeOf v
decreasing_by exact hsize

/-! ## documents -/

/-- The reader of items answers with the item or its first violation. -/
theorem answers_readItem (v : Json) : Answers .item readItem itemOf v := by
  cases v with
  | object members =>
      intro path
      rw [Content.violations, readItem, readObject_bind, Part.members]
      simp only [List.flatMap_cons, List.flatMap_nil, List.append_nil]
      refine bind_eq_verdict (readInt_eq _ _) ?_
      rw [violations_part]
      exact map_eq_verdict (answers_readBlock _ _)
  | _ => exact .of_not_object (by simp) fun _ => rfl

/-- Reading items answers with all of them or with the first violation. -/
theorem readItems_eq (path : String) (v : Option Json) :
    readItems path (v.getD .null) =
      verdict ((v.getD .null).entries.mapValues itemOf)
        ((Content.parts .item false).violations path v) :=
  readParts_eq false <| readNamed_eq readItem (readItemList path) rfl (fun _ _ _ => rfl)
    fun m _ => answers_readItem m.2

/-- The reader of providers answers with the provider or its first violation. -/
theorem answers_readProvider (v : Json) : Answers .provider readProvider providerOf v := by
  cases v with
  | object members =>
      intro path
      rw [Content.violations, readProvider, readObject_bind, Part.members]
      simp only [List.flatMap_cons, List.flatMap_nil, List.append_nil]
      rw [violations_part]
      refine bind_eq_verdict (answers_readItem _ _) ?_
      refine bind_eq_verdict (readItems_eq _ _) ?_
      exact map_eq_verdict (readItems_eq _ _)
  | _ => exact .of_not_object (by simp) fun _ => rfl

/-- Reading providers answers with all of them or with the first violation. -/
theorem readProviders_eq (path : String) (v : Option Json) :
    (readObject path (v.getD .null) >>= readProviderList path) =
      verdict ((v.getD .null).entries.mapValues providerOf)
        ((Content.parts .provider true).violations path v) :=
  readParts_eq true <| readNamed_eq readProvider (readProviderList path) rfl (fun _ _ _ => rfl)
    fun m _ => answers_readProvider m.2

/-- The reader answers with the reading of the document or with its first violation. -/
theorem ofJson_eq_verdict (v : Json) : ofJson v = verdict (reading v) (violations v) := by
  cases v with
  | object members =>
      rw [violations, Content.violations, ofJson, readObject_bind, Part.members]
      simp only [List.flatMap_cons, List.flatMap_nil, List.append_nil]
      refine bind_eq_verdict (readString_eq _ _) ?_
      rw [← bind_assoc]
      exact map_eq_verdict (readProviders_eq _ _)
  | _ =>
      rw [violations, Content.violations]
      · rfl
      · simp

/-- The reader accepts exactly the documents without violations, as the schemas that they stand
for, and reports the first violation of any other. -/
theorem ofJson_accepts_grammar (v : Json) :
    ((∃ s, ofJson v = .ok s) ↔ violations v = []) ∧
      (∀ s, ofJson v = .ok s → s = reading v) ∧
      ∀ e, ofJson v = .error e ↔ (violations v).head? = some e := by
  have hok : ∀ s, ofJson v = .ok s ↔ violations v = [] ∧ s = reading v := fun s => by
    rw [ofJson_eq_verdict, verdict_eq_ok]
  refine ⟨?_, fun s h => ((hok s).1 h).2, fun e => by rw [ofJson_eq_verdict, verdict_eq_error]⟩
  constructor
  · intro h
    obtain ⟨s, hs⟩ := h
    exact ((hok s).1 hs).1
  · intro h
    exact ⟨reading v, (hok _).2 ⟨h, rfl⟩⟩

/-- Checking goes on after a violation, but not into what is no object. -/
example :
    let block : Json := .object [("attributes", .array []), ("block_types", .object [("rule",
      .object [("block", .object []), ("min_items", .int (-1))])])]
    let provider : Json :=
      .object [("provider", .object [("version", .bool true), ("block", block)])]
    let v : Json :=
      .object [("format_version", .string "1.0"), ("provider_schemas", .object [("", provider)])]
    (violations v).map Violation.message =
      ["$.provider_schemas keys must be non-empty strings.",
        "$.provider_schemas..provider.version must be an integer.",
        "$.provider_schemas..provider.block.attributes must be an object.",
        "$.provider_schemas..provider.block.block_types.rule.min_items must not be negative."] := by
  cbv

end Schema

end ProviderTypes
