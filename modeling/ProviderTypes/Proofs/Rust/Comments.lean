import ProviderTypes.Proofs.Registry.References
import ProviderTypes.Rust.Source

/-!
# ProviderTypes.Proofs.Rust.Comments

Descriptions cannot leave their comments.  Whatever text stands in the descriptions
of the fields, the lines with documentation are the lines without it and lines of
comment between them (`Commented`), and the lines without it do not depend on the
descriptions (`commented_written`).

Both are facts about two runs, of the registry without descriptions and of the
registry itself, and follow from what they say of one field: a relation that holds
of lines as soon as it holds of their parts (`Layered`) is carried from the fields
to the whole source (`Layered.written`).
-/

namespace ProviderTypes

/-! ## without descriptions -/

/-- The field without its description. -/
def Field.undescribed (f : Field) : Field :=
  { f with metadata := { f.metadata with description := none } }

def Record.undescribed (r : Record) : Record :=
  ⟨r.fields.map Field.undescribed, by
    have hnames : (r.fields.map Field.undescribed).map Field.name = r.fields.map Field.name :=
      List.map_map
    rw [hnames]
    exact r.distinct⟩

def Shape.undescribed : Shape → Shape
  | .record r => .record r.undescribed
  | s => s

def Variant.undescribed (v : Variant) : Variant := { v with shape := v.shape.undescribed }

def Union.undescribed (u : Union) : Union :=
  ⟨u.variants.map Variant.undescribed, by
    have hnames : (u.variants.map Variant.undescribed).map Variant.name =
        u.variants.map Variant.name := List.map_map
    rw [hnames]
    exact u.distinct⟩

def Container.undescribed : Container → Container
  | .record r => .record r.undescribed
  | .union u => .union u.undescribed
  | c => c

/-- The registry without descriptions. -/
def Registry.undescribed (r : Registry) : Registry :=
  { r with entries := r.entries.mapValues Container.undescribed }

/-- Descriptions are metadata. -/
theorem Record.bare_undescribed (r : Record) : r.undescribed.bare = r.bare :=
  Record.ext List.map_map

theorem Shape.bare_undescribed (s : Shape) : s.undescribed.bare = s.bare := by
  cases s with
  | record r => exact congrArg Shape.record r.bare_undescribed
  | unit => rfl
  | newtype f => rfl
  | tuple fs => rfl

/-- Descriptions are metadata. -/
theorem Container.bare_undescribed (c : Container) : c.undescribed.bare = c.bare := by
  cases c with
  | record r => exact congrArg Container.record r.bare_undescribed
  | union u =>
      have hvariant : ∀ v : Variant, v.undescribed.bare = v.bare := fun v => by
        rw [Variant.bare, Variant.undescribed, Shape.bare_undescribed, Variant.bare]
      refine congrArg Container.union (Union.ext ?_)
      simp [Union.bare, Union.undescribed, Function.comp_def, hvariant]
  | unit => rfl
  | newtype f => rfl

/-- What is missing does not depend on descriptions. -/
theorem Registry.missing_undescribed (r : Registry) (external : List String) :
    r.undescribed.missing external = r.missing external := by
  have hbare : r.undescribed.bareItems = r.bareItems := by
    simp [bareItems, items, undescribed, OrderedMap.mapValues, Container.bare_undescribed,
      Function.comp_def]
  have hknows : r.undescribed.knows external = r.knows external := rfl
  rw [missing_eq_bareItems, missing_eq_bareItems, hbare, hknows]

namespace Rust

/-! ## lines of a source -/

/-- The lines of a source: each block ends with a blank one. -/
def written (s : GeneratorSettings) (r : Registry) : List String :=
  (blocks s r).flatMap fun block => block ++ [""]

/-- Lines are joined in two goes, with a line feed between. -/
theorem joinLines_append {ls ls' : List String} (h : ls ≠ []) (h' : ls' ≠ []) :
    joinLines (ls ++ ls') = joinLines ls ++ "\n" ++ joinLines ls' :=
  String.intercalate_append_of_ne_nil h h'

/-- Blocks that each end with a blank line have one blank line between them. -/
theorem joinLines_flatMap {block : List String} {rest : List (List String)}
    (h : ∀ b ∈ block :: rest, b ≠ []) :
    joinLines ((block :: rest).flatMap (· ++ [""])) =
      "\n\n".intercalate ((block :: rest).map joinLines) ++ "\n" := by
  have hended : ∀ b : List String, b ≠ [] → joinLines (b ++ [""]) = joinLines b ++ "\n" := by
    intro b hb
    rw [joinLines_append hb (List.cons_ne_nil _ _)]
    simp [joinLines]
  induction rest generalizing block with
  | nil =>
      rw [List.forall_mem_singleton] at h
      simp [hended block h]
  | cons next rest ih =>
      rw [List.forall_mem_cons] at h
      have hnext : (next :: rest).flatMap (· ++ [""]) ≠ [] := by simp
      have hends : "\n\n" = "\n" ++ "\n" := rfl
      have hjoined : "\n\n".intercalate ((block :: next :: rest).map joinLines) =
          joinLines block ++ "\n\n" ++ "\n\n".intercalate ((next :: rest).map joinLines) :=
        String.intercalate_cons_cons
      rw [List.flatMap_cons, joinLines_append (by simp) hnext, ih h.2, hended block h.1, hjoined,
        hends]
      simp only [String.append_assoc]

/-- No block is empty. -/
theorem ne_nil_of_mem_blocks {s : GeneratorSettings} {r : Registry} {block : List String}
    (h : block ∈ blocks s r) : block ≠ [] := by
  have hdefinitions : ∀ (es : List (QualifiedName × Container)) (known : List String),
      block ∈ definitions s known es → block ≠ [] := by
    intro es
    induction es with
    | nil => intro known hmem; cases hmem
    | cons e es ih =>
        intro known hmem
        cases List.mem_cons.1 hmem with
        | inl heq => simp [heq, definition, headLines]
        | inr hmem => exact ih _ hmem
  cases List.mem_cons.1 h with
  | inl heq => simp [heq, preamble]
  | inr hmem => exact hdefinitions _ _ hmem

/-- A source is its lines. -/
theorem source_eq_joinLines (s : GeneratorSettings) (r : Registry) :
    source s r = (r.validateReferences s.externalNames).map fun _ => joinLines (written s r) := by
  have hlines : joinLines (written s r) =
      "\n\n".intercalate ((blocks s r).map joinLines) ++ "\n" :=
    joinLines_flatMap fun _ hb => ne_nil_of_mem_blocks hb
  unfold source
  rw [hlines]
  cases r.validateReferences s.externalNames <;> rfl

/-! ## lines of comment -/

/-- A line of comment: the mark, alone or before a text on one line that does not end in a blank,
at any indentation. -/
inductive IsComment : String → Prop
  | mark : IsComment "///"
  | text {cs : List Char} {last : Char} (hline : ∀ c ∈ cs, isLineBreak c = false)
      (hlast : cs.getLast? = some last) (hblank : isBlank last = false) :
      IsComment ("/// " ++ String.ofList cs)
  | indent {line : String} (h : IsComment line) : IsComment (indent line)

/-- The second list is the first with lines of comment put between its lines. -/
inductive Commented : List String → List String → Prop
  | nil : Commented [] []
  | line (line : String) {off on : List String} (h : Commented off on) :
      Commented (line :: off) (line :: on)
  | comment {line : String} {off on : List String} (hline : IsComment line)
      (h : Commented off on) : Commented off (line :: on)

/-- The lines of a description are comments. -/
theorem isComment_of_mem_commentLines {description line : String}
    (h : line ∈ commentLines description) : IsComment line := by
  obtain ⟨cs, hcs, rfl⟩ := List.mem_map.1 h
  by_cases hempty : (trimBlankEnd cs).isEmpty
  · simp only [hempty, if_true]
    exact .mark
  · simp only [hempty]
    cases hlast : (trimBlankEnd cs).getLast? with
    | none => simp_all
    | some last =>
        have hkept : trimBlankEnd cs <+: cs := trimBlankEnd_prefix cs
        refine .text (fun c hc => ?_) hlast (getLast?_trimBlankEnd hlast)
        exact isLineBreak_eq_false_of_mem_lines hcs (hkept.subset hc)

example : commentLines "\none\n \u2028\x7d\r\npub two: u8, \x0c" =
    ["/// one", "///", "/// \x7d", "/// pub two: u8,"] := by decide

/-- The lines of documentation are comments. -/
theorem isComment_of_mem_docLines {s : GeneratorSettings} {f : Field} {line : String}
    (h : line ∈ docLines s f) : IsComment line := by
  unfold docLines at h
  split at h
  · cases hdescription : f.metadata.description with
    | none => simp [hdescription] at h
    | some description =>
        simp only [hdescription, Option.map_some, Option.getD_some] at h
        exact isComment_of_mem_commentLines h
  · cases h

theorem Commented.refl (ls : List String) : Commented ls ls := by
  induction ls with
  | nil => exact .nil
  | cons l ls ih => exact .line l ih

/-- Comments may stand in front. -/
theorem Commented.comments {comments off on : List String} (hcomments : ∀ l ∈ comments, IsComment l)
    (h : Commented off on) : Commented off (comments ++ on) := by
  induction comments with
  | nil => exact h
  | cons l comments ih =>
      rw [List.forall_mem_cons] at hcomments
      exact .comment hcomments.1 (ih hcomments.2)

/-! ## relations of lines -/

/-- A relation that holds of lines as soon as it holds of their parts. -/
structure Layered (R : List String → List String → Prop) : Prop where
  refl : ∀ ls, R ls ls
  append : ∀ {as as' bs bs'}, R as as' → R bs bs' → R (as ++ bs) (as' ++ bs')
  indented : ∀ {ls ls'}, R ls ls' → R (ls.map indent) (ls'.map indent)

/-- Equality is such a relation. -/
theorem layered_eq : Layered Eq where
  refl _ := rfl
  append h h' := by rw [h, h']
  indented h := by rw [h]

/-- To have comments in addition is such a relation. -/
theorem layered_commented : Layered Commented where
  refl := Commented.refl
  append h h' := by
    induction h with
    | nil => exact h'
    | line l _ ih => exact .line l ih
    | comment hl _ ih => exact .comment hl ih
  indented h := by
    induction h with
    | nil => exact .nil
    | line l _ ih => exact .line _ ih
    | comment hl _ ih => exact .comment hl.indent ih

namespace Layered

variable {α : Type} {R : List String → List String → Prop} {s : GeneratorSettings} {docs : Bool}

/-- The lines of many things are related when those of each are. -/
theorem flatMap (hR : Layered R) {bare : α → α} {lines lines' : α → List String} {xs : List α}
    (h : ∀ x, R (lines (bare x)) (lines' x)) :
    R ((xs.map bare).flatMap lines) (xs.flatMap lines') := by
  induction xs with
  | nil => exact hR.refl []
  | cons x xs ih => exact hR.append (h x) ih

variable (hR : Layered R) (hfields : ∀ known pub f,
  R (fieldLines s known pub f.undescribed) (fieldLines { s with emitDocs := docs } known pub f))
include hR hfields

/-- The lines of the fields of a record, with and without documentation. -/
theorem fields (known : List String) (pub : String) (r : Record) :
    R ((r.undescribed.fields.flatMap (fieldLines s known pub)).map indent)
      ((r.fields.flatMap (fieldLines { s with emitDocs := docs } known pub)).map indent) :=
  hR.indented (hR.flatMap (hfields known pub))

/-- The lines of a variant, with and without documentation. -/
theorem variant (known : List String) (v : Variant) :
    R (variantLines s known v.undescribed)
      (variantLines { s with emitDocs := docs } known v) := by
  obtain ⟨name, shape⟩ := v
  cases shape with
  | record r => exact hR.append (hR.append (hR.refl _) (fields hR hfields known "" r)) (hR.refl _)
  | unit => exact hR.refl _
  | newtype f => exact hR.refl _
  | tuple fs => exact hR.refl _

/-- The lines inside a definition, with and without documentation. -/
theorem body (known : List String) (name : String) (c : Container) :
    R (bodyLines s known name c.undescribed)
      (bodyLines { s with emitDocs := docs } known name c) := by
  cases c with
  | record r =>
      exact hR.append (hR.append (hR.refl _) (fields hR hfields known _ r)) (hR.refl _)
  | union u =>
      have hvariants : R ((u.undescribed.variants.flatMap (variantLines s known)).map indent)
          ((u.variants.flatMap (variantLines { s with emitDocs := docs } known)).map indent) :=
        hR.indented (hR.flatMap (variant hR hfields known))
      exact hR.append (hR.append (hR.refl _) hvariants) (hR.refl _)
  | unit => exact hR.refl _
  | newtype f => exact hR.refl _

/-- The lines of a definition, with and without documentation. -/
theorem entry (known : List String) (key : QualifiedName) (c : Container) :
    R (definition s known key c.undescribed)
      (definition { s with emitDocs := docs } known key c) := by
  have hhead : headLines { s with emitDocs := docs } key c = headLines s key c.undescribed := by
    cases c <;> rfl
  unfold definition
  rw [hhead]
  exact hR.append (hR.refl _) (body hR hfields known key.fullName c)

/-- The lines of all definitions, with and without documentation. -/
theorem entries (known : List String) (es : List (QualifiedName × Container)) :
    R ((definitions s known (es.map fun e => (e.1, e.2.undescribed))).flatMap (· ++ [""]))
      ((definitions { s with emitDocs := docs } known es).flatMap (· ++ [""])) := by
  induction es generalizing known with
  | nil => exact hR.refl []
  | cons e es ih =>
      rw [List.map_cons, definitions, definitions, List.flatMap_cons, List.flatMap_cons]
      -- Both runs know the same names after the entry, for names are no descriptions.
      have hentry := entry hR hfields known e.1 e.2
      exact hR.append (hR.append hentry (hR.refl [""])) (ih (e.1.fullName :: known))

/-- A relation of the lines of each field, without and with its description, is one of the lines of
the source. -/
theorem written (r : Registry) :
    R (written s r.undescribed) (written { s with emitDocs := docs } r) :=
  hR.append (hR.refl (preamble s ++ [""])) (entries hR hfields s.externalNames r.items)

end Layered

/-! ## descriptions -/

/-- A field without a description has no documentation. -/
theorem fieldLines_undescribed (s : GeneratorSettings) (known : List String) (pub : String)
    (f : Field) :
    fieldLines s known pub f.undescribed = fieldLines { s with emitDocs := false } known pub f := by
  have hdocs : docLines s f.undescribed = docLines { s with emitDocs := false } f := by
    simp [docLines, Field.undescribed]
  unfold fieldLines
  rw [hdocs]
  rfl

/-- Documentation adds comments to the lines of a field. -/
theorem commented_fieldLines (s : GeneratorSettings) (known : List String) (pub : String)
    (f : Field) :
    Commented (fieldLines s known pub f.undescribed)
      (fieldLines { s with emitDocs := true } known pub f) := by
  rw [fieldLines_undescribed, fieldLines, fieldLines]
  simp only [List.append_assoc]
  refine Commented.comments (fun l hl => isComment_of_mem_docLines hl) ?_
  simp [docLines, Commented.refl]

/-- The lines with documentation are those without it and lines of comment between them.  The lines
without it are those of the registry without descriptions; the source is these lines, and it is
refused with or without documentation and descriptions for the same references. -/
theorem commented_written (s : GeneratorSettings) (r : Registry) :
    let off := { s with emitDocs := false }
    let on := { s with emitDocs := true }
    Commented (written off r) (written on r) ∧
      written off r = written on r.undescribed ∧
      source off r = source on r.undescribed ∧
      ∀ t, source t r = (r.validateReferences t.externalNames).map fun _ =>
        joinLines (written t r) := by
  intro off on
  have hwritten : written on r.undescribed = written off r :=
    layered_eq.written (fieldLines_undescribed on) r
  have hcommented : Commented (written on r.undescribed) (written on r) :=
    layered_commented.written (commented_fieldLines on) r
  have hvalid : r.undescribed.validateReferences on.externalNames =
      r.validateReferences on.externalNames := by
    rw [Registry.validateReferences, r.missing_undescribed]
    rfl
  refine ⟨hwritten ▸ hcommented, hwritten.symm, ?_, fun t => source_eq_joinLines t r⟩
  rw [source_eq_joinLines, source_eq_joinLines, hwritten, hvalid]
  rfl

end Rust

end ProviderTypes
