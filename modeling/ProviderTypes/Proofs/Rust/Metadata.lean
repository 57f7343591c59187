import ProviderTypes.Proofs.Members.NameOrder
import ProviderTypes.Proofs.Registry.History
import ProviderTypes.Proofs.Registry.References
import ProviderTypes.Proofs.Rust.WireName

/-!
# ProviderTypes.Proofs.Rust.Metadata

What the source of a registry shows of the metadata.  Without documentation it
shows the names that fields are renamed to, and nothing else: the lines of equal
registries are equal exactly when these names are (`blocks_eq_iff`), and equal
registries fail with one error (`source_of_same`).

Equality of registries ignores metadata, and with it those names.  So equal
registries may have different sources (`not_forall_source_eq_of_same`).
-/

namespace ProviderTypes

/-! ## renames -/

def Record.renames (r : Record) : List (Option String) := r.fields.map Field.rename?

def Shape.renames : Shape → List (Option String)
  | .record r => r.renames
  | _ => []

/-- The names that fields are renamed to, variant by variant. -/
def Container.renames : Container → List (List (Option String))
  | .record r => [r.renames]
  | .union u => u.variants.map fun v => v.shape.renames
  | _ => []

/-- The names that fields are renamed to, entry by entry. -/
def Registry.renames (r : Registry) : List (List (List (Option String))) :=
  r.items.map fun e => e.2.renames

/-- Shapes that are equal up to metadata are equal or are both records. -/
theorem Shape.cases_of_bare_eq {a b : Shape} (h : a.bare = b.bare) :
    a = b ∨ ∃ r r', a = .record r ∧ b = .record r' ∧ r.bare = r'.bare := by
  cases a <;> cases b <;> simp_all [bare]

/-- Structurally equal containers are equal, or both records, or both unions. -/
theorem Container.Same.cases {c d : Container} (h : c.Same d) :
    c = d ∨ (∃ r r', c = .record r ∧ d = .record r' ∧ r.bare = r'.bare) ∨
      ∃ u u', c = .union u ∧ d = .union u' ∧ u.bare = u'.bare := by
  cases c <;> cases d <;> simp_all [Container.Same, bare]

/-! ## lines of related things -/

namespace Rust

variable {α β : Type}

/-- The lines of the two are equal, whatever follows them, exactly when their images are. -/
def Matched (lines : α → List String) (image : α → β) (x y : α) : Prop :=
  ∀ rest rest', lines x ++ rest = lines y ++ rest' ↔ image x = image y ∧ rest = rest'

/-- Lines of many things are matched when those of each are. -/
theorem matched_flatMap {lines : α → List String} {image : α → β} {xs ys : List α}
    (h : List.Forall₂ (Matched lines image) xs ys) :
    Matched (List.flatMap lines) (List.map image) xs ys := by
  intro rest rest'
  induction h with
  | nil => simp
  | cons hxy _ ih =>
      rw [List.flatMap_cons, List.flatMap_cons, List.append_assoc, List.append_assoc, hxy, ih,
        List.map_cons, List.map_cons, List.cons.injEq, and_assoc]

variable {s : GeneratorSettings} {known : List String} {pub : String} {lay : String → String}

theorem Matched.refl (lines : α → List String) (image : α → β) (x : α) :
    Matched lines image x x := by
  intro rest rest'
  simp

/-- The same lines before and after change nothing. -/
theorem Matched.between {lines : α → List String} {image : α → β} {x y : α}
    (h : Matched lines image x y) (before after : List String) :
    Matched (fun a => before ++ lines a ++ after) image x y := by
  intro rest rest'
  simp only [List.append_assoc, List.append_cancel_left_eq, h _ _]

/-! ## fields -/

/-- A line that may stand before others can be told from them when it is none of them. -/
theorem optional_append_eq_iff {line : String → String} (hline : Function.Injective line)
    {ls : List String} (hne : ls ≠ []) (hls : ∀ name, line name ∉ ls) (m n : Option String)
    (rest rest' : List String) :
    m.toList.map line ++ ls ++ rest = n.toList.map line ++ ls ++ rest' ↔ m = n ∧ rest = rest' := by
  obtain ⟨l, ls, rfl⟩ := List.exists_cons_of_ne_nil hne
  have hl : ∀ name, line name ≠ l := fun name heq => hls name (heq ▸ List.mem_cons_self)
  cases m with
  | none =>
      cases n with
      | none => simp
      | some y => simp [(hl y).symm]
  | some x =>
      cases n with
      | none => simp [hl x]
      | some y => simp [hline.eq_iff]

/-- The lines of fields that are equal but for their metadata tell the names that the fields are
renamed to. -/
theorem matched_fieldLines (hs : s.emitDocs = false) (hlay : Function.Injective lay) {f g : Field}
    (h : f.bare = g.bare) :
    Matched (fun f => (fieldLines s known pub f).map lay) Field.rename? f g := by
  intro rest rest'
  obtain ⟨hname, hvalue⟩ : f.name = g.name ∧ f.value = g.value := by simpa [Field.bare] using h
  have hlines : ∀ f : Field, (fieldLines s known pub f).map lay =
      f.rename?.toList.map (fun name => lay (renameLine name)) ++
        (skipLines f.value ++ [pub ++ f.name ++ ": " ++ typeText (some known) f.value ++ ","]).map
          lay := by
    intro f
    simp [fieldLines, docLines, hs, fieldRenameLines_eq, Function.comp_def]
  simp only [hlines, hname, hvalue]
  -- Only the first line can differ, and none of the others could stand in its place.
  apply optional_append_eq_iff (fun x y h => renameLine_inj.1 (hlay h)) (by simp)
  intro name hmem
  obtain ⟨line, hline, heq⟩ := List.mem_map.1 hmem
  rw [hlay heq, List.mem_append, List.mem_singleton] at hline
  cases hline with
  | inl hline => exact renameLine_not_mem_skipLines _ hline
  | inr hline => exact renameLine_ne_append_comma _ _ hline

/-- The lines of fields that are equal up to metadata are equal when the renames are. -/
theorem matched_fields (hs : s.emitDocs = false) (hlay : Function.Injective lay) {r r' : Record}
    (h : r.bare = r'.bare) :
    Matched (fun r => (r.fields.flatMap (fieldLines s known pub)).map lay) Record.renames r r' := by
  have hfields : List.Forall₂ (fun f g => f.bare = g.bare) r.fields r'.fields :=
    map_eq_map_iff_forall₂.1 (congrArg Record.fields h)
  intro rest rest'
  simp only [List.map_flatMap]
  exact matched_flatMap (hfields.imp fun f g h => matched_fieldLines hs hlay h) rest rest'

theorem indent_injective : Function.Injective indent := fun _ _ h => (String.append_right_inj _).1 h

/-! ## variants -/

/-- The lines of variants that are equal up to metadata are equal when the renames are. -/
theorem matched_variantLines (hs : s.emitDocs = false) {v w : Variant} (h : v.bare = w.bare) :
    Matched (fun v => (variantLines s known v).map indent) (fun v => v.shape.renames) v w := by
  obtain ⟨name, shape⟩ := v
  obtain ⟨name', shape'⟩ := w
  simp only [Variant.bare, Variant.mk.injEq] at h
  obtain ⟨rfl, h⟩ := h
  cases Shape.cases_of_bare_eq h with
  | inl heq =>
      rw [heq]
      exact .refl _ _ _
  | inr hrecords =>
      obtain ⟨r, r', rfl, rfl, hr⟩ := hrecords
      have hlines : ∀ r, (variantLines s known ⟨name, .record r⟩).map indent =
          [indent (name ++ " \x7b")] ++
            (r.fields.flatMap (fieldLines s known "")).map (indent ∘ indent) ++
              [indent "\x7d,"] := by
        intro r
        simp [variantLines]
      intro rest rest'
      simp only [hlines, Shape.renames]
      exact (matched_fields hs (indent_injective.comp indent_injective) hr).between _ _ rest rest'

/-! ## definitions -/

/-- The lines of the definitions of structurally equal containers tell the names that fields are
renamed to, and nothing else of their metadata. -/
theorem matched_definition (hs : s.emitDocs = false) (key : QualifiedName) {c d : Container}
    (h : c.Same d) : Matched (definition s known key) Container.renames c d := by
  cases h.cases with
  | inl heq =>
      rw [heq]
      exact .refl _ _ _
  | inr h =>
      cases h with
      | inl hrecords =>
          obtain ⟨r, r', rfl, rfl, hr⟩ := hrecords
          have hlines : ∀ r, definition s known key (.record r) =
              headLines s key (.record .empty) ++
                [visibility s ++ "struct " ++ key.fullName ++ " \x7b"] ++
                (r.fields.flatMap (fieldLines s known (visibility s))).map indent ++ ["\x7d"] := by
            intro r
            simp [definition, bodyLines, headLines, derives]
          intro rest rest'
          simp only [hlines, Container.renames, List.cons.injEq, and_true]
          exact (matched_fields hs indent_injective hr).between _ _ rest rest'
      | inr hunions =>
          obtain ⟨u, u', rfl, rfl, hu⟩ := hunions
          have hvariants : List.Forall₂ (fun v w => v.bare = w.bare) u.variants u'.variants :=
            map_eq_map_iff_forall₂.1 (congrArg Union.variants hu)
          have hlines : ∀ u, definition s known key (.union u) =
              headLines s key (.union ⟨[], List.nodup_nil⟩) ++
                [visibility s ++ "enum " ++ key.fullName ++ " \x7b"] ++
                u.variants.flatMap (fun v => (variantLines s known v).map indent) ++ ["\x7d"] := by
            intro u
            simp [definition, bodyLines, headLines, derives, List.map_flatMap]
          intro rest rest'
          simp only [hlines, Container.renames]
          exact (matched_flatMap (hvariants.imp fun v w h => matched_variantLines hs h)).between
            _ _ rest rest'

/-- The definitions of structurally equal entries are equal when the renames are. -/
theorem definitions_eq_iff (hs : s.emitDocs = false) {es es' : List Registry.Entry}
    (h : List.Forall₂ (fun d e => d.1 = e.1 ∧ d.2.Same e.2) es es') :
    definitions s known es = definitions s known es' ↔
      es.map (fun e => e.2.renames) = es'.map fun e => e.2.renames := by
  induction h generalizing known with
  | nil => simp
  | @cons d e ds es hde _ ih =>
      obtain ⟨key, c⟩ := d
      obtain ⟨key', c'⟩ := e
      obtain ⟨rfl, hsame⟩ := hde
      have hdefinition : definition s known key c = definition s known key c' ↔
          c.renames = c'.renames := by
        simpa using matched_definition hs key hsame [] []
      simp only [definitions, List.cons.injEq, List.map_cons, hdefinition, ih]

end Rust

/-! ## sources -/

namespace Registry

variable {a b : Registry}

/-- Equal registries have equal entries one by one. -/
theorem Same.forall₂_items (h : a.Same b) :
    List.Forall₂ (fun d e => d.1 = e.1 ∧ d.2.Same e.2) a.items b.items :=
  (map_eq_map_iff_forall₂.1 h).imp fun _ _ heq => Prod.mk.inj heq

/-- Equal registries have the same owners of full names. -/
theorem Same.owners_eq (h : a.Same b) (ha : a.Consistent) (hb : b.Consistent) :
    a.owners = b.owners := by
  have hkeys : a.keys = b.keys := map_eq_map_iff_forall₂.2 (h.forall₂_items.imp fun _ _ h => h.1)
  apply OrderedMap.ext_get?
  intro name
  ext key
  rw [ha.owner_iff, hb.owner_iff, hkeys]

/-- Equal registries have the same unresolved references. -/
theorem Same.validateReferences_eq (h : a.Same b) (ha : a.Consistent) (hb : b.Consistent)
    (external : List String) : a.validateReferences external = b.validateReferences external := by
  have hknows : a.knows external = b.knows external := by
    funext name
    rw [knows, knows, h.owners_eq ha hb]
  have hbare : a.bareItems = b.bareItems := h
  unfold validateReferences
  rw [missing_eq_bareItems, missing_eq_bareItems, hknows, hbare]

end Registry

namespace Rust

variable {s : GeneratorSettings} {a b : Registry}

/-- The lines of equal registries are equal exactly when their fields are renamed to the same
names. -/
theorem blocks_eq_iff (hs : s.emitDocs = false) (h : a.Same b) :
    blocks s a = blocks s b ↔ a.renames = b.renames := by
  rw [blocks, blocks, List.cons.injEq, definitions_eq_iff hs h.forall₂_items]
  exact and_iff_right rfl

/-- Without documentation, equal registries fail with one error.  Their lines, block by block, are
equal exactly when their fields are renamed to the same names.  Of the text only one direction is
said: registries with equal lines have one source. -/
theorem source_of_same (hs : s.emitDocs = false) (ha : a.Consistent) (hb : b.Consistent)
    (h : a.Same b) :
    (∀ e, source s a = .error e ↔ source s b = .error e) ∧
      (blocks s a = blocks s b ↔ a.renames = b.renames) ∧
      (a.renames = b.renames → source s a = source s b) := by
  have hreferences := h.validateReferences_eq ha hb s.externalNames
  refine ⟨?_, blocks_eq_iff hs h, ?_⟩
  · intro e
    unfold source
    rw [hreferences]
    cases b.validateReferences s.externalNames <;> simp
  · intro hrenames
    unfold source
    rw [hreferences, (blocks_eq_iff hs h).2 hrenames]

/-- A registry with one record of one field. -/
def zone (metadata : FieldMetadata) : Registry :=
  .after [.insert ⟨none, "zone_details"⟩
    (.record ⟨[{ name := "self_", value := .str, metadata }], List.nodup_singleton _⟩)]
    (.empty .error)

theorem consistent_zone (metadata : FieldMetadata) : (zone metadata).Consistent :=
  Registry.consistent_after _ (Registry.consistent_empty _)

/-- A description does not show in the source, and the name in the schema does. -/
theorem source_of_same_zone :
    let s : GeneratorSettings := { emitDocs := false }
    let a := zone { sourceName := some "self" }
    let b := zone { sourceName := some "self", description := some "The zone.", required := true }
    let c := zone { sourceName := some "self_" }
    a.Same b ∧ source s a = source s b ∧ a.Same c ∧ blocks s a ≠ blocks s c := by
  intro s a b c
  have hb : a.Same b := by decide +kernel
  have hc : a.Same c := by decide +kernel
  obtain ⟨-, -, hsource⟩ := source_of_same (s := s) rfl (consistent_zone _) (consistent_zone _) hb
  obtain ⟨-, hblocks, -⟩ := source_of_same (s := s) rfl (consistent_zone _) (consistent_zone _) hc
  exact ⟨hb, hsource (by decide +kernel), hc, fun h => absurd (hblocks.1 h) (by decide +kernel)⟩

/-- Equal registries may have different sources: the fields `self_` of two equal records come from
attributes `self` and `self_`, and only the first is renamed. -/
theorem not_forall_source_eq_of_same :
    ¬ ∀ (s : GeneratorSettings) (a b : Registry), s.emitDocs = false → a.Consistent →
      b.Consistent → a.Same b → source s a = source s b := by
  intro hall
  have heq := hall { emitDocs := false } (zone { sourceName := some "self" })
    (zone { sourceName := some "self_" }) rfl (consistent_zone _) (consistent_zone _)
    (by decide +kernel)
  exact absurd heq (by decide +kernel)

end Rust

end ProviderTypes
