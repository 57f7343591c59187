import ProviderTypes.Flatten.Names
import ProviderTypes.Proofs.Rust.Comments
import Mathlib.Data.List.DropRight
import Mathlib.Logic.Function.Iterate

/-!
# ProviderTypes.Proofs.Rust.Emission

A source written line by line.  The writer (`Writer`) has the lines so far, the
level of indentation and the names that are known; steps write single lines, go in
and out, and add names.  At the end the blank lines after the last definition are
stripped.

`Writes step ls` says what a step adds: the lines `ls`, at the level where it
starts, and nothing else; in particular it comes back to that level.  Steps in
sequence add their lines in sequence (`Writes.seq`, `Writes.forM`), and steps
further in add theirs indented (`Writes.within`).  So the writer starts each entry
at the margin, and what it writes is the source (`source_eq_emit`).
-/

namespace ProviderTypes.Rust

/-! ## the writer -/

/-- A source in the making. -/
structure Writer where
  lines : List String := []
  level : Nat := 0
  known : List String

/-- A step of writing. -/
abbrev Step := StateM Writer Unit

namespace Step

/-- Write a line at the level of indentation; a blank line has no indentation. -/
def line (text : String) : Step :=
  modify fun w => { w with lines := w.lines ++ [if text = "" then "" else indent^[w.level] text] }

/-- Write a line that depends on the known names. -/
def lineOf (text : List String → String) : Step := do
  line (text (← get).known)

/-- Take steps one level further in. -/
def within (step : Step) : Step := do
  modify fun w => { w with level := w.level + 1 }
  step
  modify fun w => { w with level := w.level - 1 }

/-- Count a name as known. -/
def learn (name : String) : Step := modify fun w => { w with known := name :: w.known }

/-! ## writing a source -/

/-- Write a field: its comment, its attributes, and its type. -/
def field (s : GeneratorSettings) (pub : String) (f : Field) : Step := do
  (docLines s f).forM line
  (fieldRenameLines f).forM line
  (skipLines f.value).forM line
  lineOf fun known => pub ++ f.name ++ ": " ++ typeText (some known) f.value ++ ","

def variant (s : GeneratorSettings) (v : Variant) : Step :=
  match v.shape with
  | .unit => line (v.name ++ ",")
  | .newtype f => lineOf fun known => v.name ++ "(" ++ typeText (some known) f ++ "),"
  | .tuple fs =>
    lineOf fun known => v.name ++ "(" ++ commaSeparated (typeTexts (some known) fs) ++ "),"
  | .record r => do
    line (v.name ++ " \x7b")
    within (r.fields.forM (field s ""))
    line "\x7d,"

def body (s : GeneratorSettings) (name : String) (c : Container) : Step :=
  let pub := visibility s
  match c with
  | .unit => line (pub ++ "struct " ++ name ++ ";")
  | .newtype f =>
    lineOf fun known => pub ++ "struct " ++ name ++ "(" ++ pub ++ typeText (some known) f ++ ");"
  | .record r => do
    line (pub ++ "struct " ++ name ++ " \x7b")
    within (r.fields.forM (field s pub))
    line "\x7d"
  | .union u => do
    line (pub ++ "enum " ++ name ++ " \x7b")
    within (u.variants.forM (variant s))
    line "\x7d"

/-- Write an entry and a blank line, and count its name as known. -/
def entry (s : GeneratorSettings) (e : QualifiedName × Container) : Step := do
  (headLines s e.1 e.2).forM line
  body s e.1.fullName e.2
  line ""
  learn e.1.fullName

/-- Write the preamble and a blank line, and then the entries. -/
def entries (s : GeneratorSettings) (es : List (QualifiedName × Container)) : Step := do
  (preamble s).forM line
  line ""
  es.forM (entry s)

end Step

/-- The writer after the preamble and these entries. -/
def writerAfter (s : GeneratorSettings) (es : List (QualifiedName × Container)) : Writer :=
  ((Step.entries s es).run { known := s.externalNames }).2

/-- The text without the line feeds at its end. -/
def stripLineFeeds (text : String) : String :=
  String.ofList (text.toList.rdropWhile (· = '\n'))

/-- The source of a registry as it is written line by line. -/
def emit (s : GeneratorSettings) (r : Registry) : String :=
  stripLineFeeds (joinLines (writerAfter s r.items).lines) ++ "\n"

/-! ## what steps write -/

/-- The step adds these lines at the level where it starts, and changes nothing else. -/
def Writes (step : Step) (ls : List String → List String) : Prop :=
  ∀ w : Writer, step.run w = ((), { w with lines := w.lines ++ (ls w.known).map indent^[w.level] })

variable {α : Type} {step step' : Step} {ls ls' : List String → List String}

theorem writes_nil : Writes (pure ()) fun _ => [] := by
  intro w
  have hrun : (pure () : Step).run w = ((), w) := rfl
  rw [hrun, List.map_nil, List.append_nil]

/-- A line that is not empty is written at the level of the writer. -/
theorem writes_line {text : String} (h : text ≠ "") : Writes (Step.line text) fun _ => [text] := by
  intro w
  have hrun : (Step.line text).run w =
      ((), { w with lines := w.lines ++ [if text = "" then "" else indent^[w.level] text] }) := rfl
  rw [hrun, if_neg h, List.map_singleton]

/-- Steps write in turn. -/
theorem Writes.seq (h : Writes step ls) (h' : Writes step' ls') :
    Writes (do step; step') fun known => ls known ++ ls' known := by
  intro w
  rw [StateT.run_bind, h w]
  change step'.run _ = _
  rw [h']
  simp

/-- A step for each member writes the lines of each. -/
theorem Writes.forM {l : List α} {f : α → Step} {ls : α → List String → List String}
    (h : ∀ a ∈ l, Writes (f a) (ls a)) : Writes (l.forM f) fun known => l.flatMap (ls · known) := by
  induction l with
  | nil => exact writes_nil
  | cons a l ih =>
      rw [List.forall_mem_cons] at h
      exact h.1.seq (ih h.2)

/-- Lines are written one after another. -/
theorem writes_lines {texts : List String} (h : ∀ text ∈ texts, text ≠ "") :
    Writes (texts.forM Step.line) fun _ => texts := by
  have hall := Writes.forM fun text htext => writes_line (h text htext)
  simpa using hall

/-- A line that depends on the known names is written with those of the writer. -/
theorem writes_lineOf {text : List String → String} (h : ∀ known, text known ≠ "") :
    Writes (Step.lineOf text) fun known => [text known] := by
  intro w
  have hrun : (Step.lineOf text).run w = (Step.line (text w.known)).run w := rfl
  rw [hrun, writes_line (h w.known)]

/-- Steps further in write their lines indented, and the level is as before. -/
theorem Writes.within (h : Writes step ls) :
    Writes (Step.within step) fun known => (ls known).map indent := by
  intro w
  have hrun : (Step.within step).run w =
      ((), { (step.run { w with level := w.level + 1 }).2 with
        level := (step.run { w with level := w.level + 1 }).2.level - 1 }) := rfl
  rw [hrun, h]
  simp [Function.iterate_succ]

/-! ## the parts of a source -/

variable {s : GeneratorSettings}

/-- A comment is no empty line. -/
theorem ne_empty_of_isComment {l : String} (h : IsComment l) : l ≠ "" := by
  induction h with
  | mark => decide
  | text => simp
  | indent _ ih => simp [indent]

theorem ne_empty_renameLine (name : String) : renameLine name ≠ "" :=
  append_ne_empty_of_right (by decide)

/-- Writing a field writes its lines. -/
theorem writes_field (s : GeneratorSettings) (pub : String) (f : Field) :
    Writes (Step.field s pub f) fun known => fieldLines s known pub f := by
  have hdoc : ∀ l ∈ docLines s f, l ≠ "" := fun l hl =>
    ne_empty_of_isComment (isComment_of_mem_docLines hl)
  have hrename : ∀ l ∈ fieldRenameLines f, l ≠ "" := by
    intro l hl
    unfold fieldRenameLines at hl
    split at hl
    · split at hl
      · rw [List.mem_singleton.1 hl]
        exact ne_empty_renameLine _
      · contradiction
    · contradiction
  have hskip : ∀ l ∈ skipLines f.value, l ≠ "" := by cases f.value <;> simp [skipLines]
  have htype : Writes (Step.lineOf _) fun known =>
      [pub ++ f.name ++ ": " ++ typeText (some known) f.value ++ ","] :=
    writes_lineOf fun known => append_ne_empty_of_right (by decide)
  intro w
  rw [Step.field, (writes_lines hdoc).seq ((writes_lines hrename).seq
    ((writes_lines hskip).seq htype)) w]
  simp [fieldLines]

/-- Writing a variant writes its lines. -/
theorem writes_variant (s : GeneratorSettings) (v : Variant) :
    Writes (Step.variant s v) fun known => variantLines s known v := by
  obtain ⟨name, shape⟩ := v
  cases shape with
  | unit => exact writes_line (append_ne_empty_of_right (by decide))
  | newtype f =>
      let text := fun known => name ++ "(" ++ typeText (some known) f ++ "),"
      have hline : Writes (Step.lineOf text) fun known => [text known] :=
        writes_lineOf fun _ => append_ne_empty_of_right (by decide)
      exact hline
  | tuple fs =>
      let text := fun known => name ++ "(" ++ commaSeparated (typeTexts (some known) fs) ++ "),"
      have hline : Writes (Step.lineOf text) fun known => [text known] :=
        writes_lineOf fun _ => append_ne_empty_of_right (by decide)
      exact hline
  | record r =>
      have hopen : Writes (Step.line (name ++ " \x7b")) fun _ => [name ++ " \x7b"] :=
        writes_line (append_ne_empty_of_right (by decide))
      have hfields := (Writes.forM (l := r.fields) fun f _ => writes_field s "" f).within
      have hclose : Writes (Step.line "\x7d,") fun _ => ["\x7d,"] := writes_line (by decide)
      intro w
      rw [Step.variant, hopen.seq (hfields.seq hclose) w]
      simp [variantLines]

/-- Writing what is inside a definition writes its lines. -/
theorem writes_body (s : GeneratorSettings) (name : String) (c : Container) :
    Writes (Step.body s name c) fun known => bodyLines s known name c := by
  have hclose : Writes (Step.line "\x7d") fun _ => ["\x7d"] := writes_line (by decide)
  cases c with
  | unit => exact writes_line (append_ne_empty_of_right (by decide))
  | newtype f =>
      let text := fun known => visibility s ++ "struct " ++ name ++ "(" ++ visibility s ++
        typeText (some known) f ++ ");"
      have hline : Writes (Step.lineOf text) fun known => [text known] :=
        writes_lineOf fun _ => append_ne_empty_of_right (by decide)
      exact hline
  | record r =>
      have hopen : Writes (Step.line (visibility s ++ "struct " ++ name ++ " \x7b")) fun _ =>
          [visibility s ++ "struct " ++ name ++ " \x7b"] :=
        writes_line (append_ne_empty_of_right (by decide))
      have hfields :=
        (Writes.forM (l := r.fields) fun f _ => writes_field s (visibility s) f).within
      intro w
      rw [Step.body, hopen.seq (hfields.seq hclose) w]
      simp [bodyLines]
  | union u =>
      have hopen : Writes (Step.line (visibility s ++ "enum " ++ name ++ " \x7b")) fun _ =>
          [visibility s ++ "enum " ++ name ++ " \x7b"] :=
        writes_line (append_ne_empty_of_right (by decide))
      have hvariants := (Writes.forM (l := u.variants) fun v _ => writes_variant s v).within
      intro w
      rw [Step.body, hopen.seq (hvariants.seq hclose) w]
      simp [bodyLines]

/-- No line before a body is empty. -/
theorem ne_empty_of_mem_headLines {key : QualifiedName} {c : Container} {l : String}
    (h : l ∈ headLines s key c) : l ≠ "" := by
  rw [headLines, List.mem_append, List.mem_singleton] at h
  cases h with
  | inl h =>
      rw [h]
      exact append_ne_empty_of_right (by decide)
  | inr h =>
      split at h
      · split at h
        · contradiction
        · rw [List.mem_singleton.1 h]
          exact ne_empty_renameLine _
      · contradiction

/-! ## ends of lines -/

/-- The text ends in a character other than a line feed. -/
def Ended (text : String) : Prop := text.toList.getLast?.any (· ≠ '\n') = true

instance : DecidablePred Ended := fun _ => inferInstanceAs (Decidable (_ = true))

theorem Ended.append {t : String} (h : Ended t) (s : String) : Ended (s ++ t) := by
  unfold Ended at h ⊢
  rw [String.toList_append, List.getLast?_append]
  cases hlast : t.toList.getLast? with
  | none => simp [hlast] at h
  | some c => simpa [hlast] using h

theorem Ended.ne_empty {t : String} (h : Ended t) : t ≠ "" := by
  rintro rfl
  exact absurd h (by decide)

/-- A joined text ends like its last part. -/
theorem ended_intercalate {last : String} (h : Ended last) (separator : String)
    (texts : List String) : Ended (separator.intercalate (texts ++ [last])) := by
  induction texts with
  | nil => simpa using h
  | cons t texts ih =>
      obtain ⟨u, us, hus⟩ := List.exists_cons_of_ne_nil (l := texts ++ [last]) (by simp)
      rw [hus] at ih
      rw [List.cons_append, hus, String.intercalate_cons_cons]
      exact ih.append _

/-- Stripping takes the line feed off a text that ends in no other. -/
theorem stripLineFeeds_append {t : String} (h : Ended t) : stripLineFeeds (t ++ "\n") = t := by
  have hlast : ∀ hne : t.toList ≠ [], ¬ t.toList.getLast hne = '\n' := by
    intro hne
    simpa [Ended, List.getLast?_eq_some_getLast hne] using h
  unfold stripLineFeeds
  rw [String.toList_append]
  simp [List.rdropWhile_concat_pos, List.rdropWhile_eq_self_iff.2, hlast]

/-- The lines of the preamble end in no line feed. -/
theorem ended_preamble (s : GeneratorSettings) : ∀ l ∈ preamble s, Ended l := by
  have hoptional : ∀ (p : Prop) [Decidable p] (l : String), Ended l →
      ∀ k ∈ if p then [] else [l], Ended k := by
    intro p _ l hl
    split <;> simp [hl]
  have himport : ∀ l ∈ s.externalDefinitions.filterMap fun e => importLine? e.1 e.2, Ended l := by
    intro l hl
    obtain ⟨e, -, he⟩ := List.mem_filterMap.1 hl
    unfold importLine? at he
    split at he
    · contradiction
    · rw [← Option.some.inj he]
      exact Ended.append (by decide) _
  have hmodule : Ended ("//! Serde bindings for module `" ++ s.moduleName ++ "`.") :=
    Ended.append (by decide) _
  simp only [preamble, List.forall_mem_append, List.forall_mem_cons]
  exact ⟨⟨⟨⟨⟨hmodule, by decide +kernel, by simp⟩, hoptional _ _ (by decide +kernel)⟩,
    by decide +kernel, by simp⟩, hoptional _ _ (by decide +kernel)⟩, himport⟩

/-- The lines end in a line that ends in a character other than a line feed. -/
def EndedBlock (block : List String) : Prop := ∃ init last, block = init ++ [last] ∧ Ended last

theorem EndedBlock.joinLines {block : List String} (h : EndedBlock block) :
    Ended (joinLines block) := by
  obtain ⟨init, last, rfl, hlast⟩ := h
  exact ended_intercalate hlast "\n" init

theorem endedBlock_preamble (s : GeneratorSettings) : EndedBlock (preamble s) := by
  have hne : preamble s ≠ [] := by simp [preamble]
  exact ⟨_, _, (List.dropLast_append_getLast hne).symm,
    ended_preamble s _ (List.getLast_mem hne)⟩

/-- A definition ends in no line feed. -/
theorem endedBlock_definition (s : GeneratorSettings) (known : List String) (key : QualifiedName)
    (c : Container) : EndedBlock (definition s known key c) := by
  have hbody : EndedBlock (bodyLines s known key.fullName c) := by
    cases c with
    | unit => exact ⟨[], _, rfl, Ended.append (by decide) _⟩
    | newtype f => exact ⟨[], _, rfl, Ended.append (by decide) _⟩
    | record r => exact ⟨_, "\x7d", rfl, by decide⟩
    | union u => exact ⟨_, "\x7d", rfl, by decide⟩
  obtain ⟨init, last, hlines, hlast⟩ := hbody
  exact ⟨headLines s key c ++ init, last, by rw [definition, hlines, List.append_assoc], hlast⟩

theorem endedBlock_of_mem_definitions {es : List (QualifiedName × Container)}
    {known block : List String} (h : block ∈ definitions s known es) : EndedBlock block := by
  induction es generalizing known with
  | nil => contradiction
  | cons e es ih =>
      rw [definitions, List.mem_cons] at h
      cases h with
      | inl h =>
          rw [h]
          exact endedBlock_definition _ _ _ _
      | inr h => exact ih h

/-- Every block of a source ends in a character other than a line feed. -/
theorem endedBlock_of_mem_blocks {r : Registry} {block : List String} (h : block ∈ blocks s r) :
    EndedBlock block := by
  rw [blocks, List.mem_cons] at h
  cases h with
  | inl h =>
      rw [h]
      exact endedBlock_preamble s
  | inr h => exact endedBlock_of_mem_definitions h

/-- A source without the line feed at its end ends in another character. -/
theorem ended_blocks (s : GeneratorSettings) (r : Registry) :
    Ended ("\n\n".intercalate ((blocks s r).map joinLines)) := by
  have hne : blocks s r ≠ [] := List.cons_ne_nil _ _
  have hlast : EndedBlock ((blocks s r).getLast hne) :=
    endedBlock_of_mem_blocks (List.getLast_mem hne)
  rw [← List.dropLast_append_getLast hne, List.map_append]
  exact ended_intercalate hlast.joinLines _ _

/-! ## a source -/

theorem run_blank (w : Writer) :
    (Step.line "").run w = ((), { w with lines := w.lines ++ [""] }) := rfl

/-- At the margin an entry is written as its definition and a blank line, at the margin still, and
its name is known from then on. -/
theorem run_entry (e : QualifiedName × Container) (lines known : List String) :
    (Step.entry s e).run ⟨lines, 0, known⟩ =
      ((), ⟨lines ++ (definition s known e.1 e.2 ++ [""]), 0, e.1.fullName :: known⟩) := by
  have hhead : ∀ l ∈ headLines s e.1 e.2, l ≠ "" := fun l hl => ne_empty_of_mem_headLines hl
  have hdefinition := (writes_lines hhead).seq (writes_body s e.1.fullName e.2)
  have hrun : (Step.entry s e).run ⟨lines, 0, known⟩ =
      (do Step.line ""; Step.learn e.1.fullName : Step).run
        ((do (headLines s e.1 e.2).forM Step.line; Step.body s e.1.fullName e.2 : Step).run
          ⟨lines, 0, known⟩).2 := rfl
  rw [hrun, hdefinition]
  have hlines :
      lines ++ (headLines s e.1 e.2 ++ bodyLines s known e.1.fullName e.2).map indent^[0] ++ [""] =
        lines ++ (definition s known e.1 e.2 ++ [""]) := by simp [definition]
  rw [← hlines]
  rfl

/-- Writing entries writes their definitions, each with an empty line behind, and makes their names
known. -/
theorem run_entries (es : List (QualifiedName × Container)) (lines known : List String) :
    (es.forM (Step.entry s)).run ⟨lines, 0, known⟩ =
      ((), ⟨lines ++ (definitions s known es).flatMap (· ++ [""]), 0,
        (es.map fun e => e.1.fullName).reverse ++ known⟩) := by
  induction es generalizing lines known with
  | nil =>
      have hrun : (List.forM [] (Step.entry s)).run ⟨lines, 0, known⟩ = ((), ⟨lines, 0, known⟩) :=
        rfl
      rw [hrun]
      simp [definitions]
  | cons e es ih =>
      have hrun : ((e :: es).forM (Step.entry s)).run ⟨lines, 0, known⟩ =
          (es.forM (Step.entry s)).run ((Step.entry s e).run ⟨lines, 0, known⟩).2 := rfl
      rw [hrun, run_entry, ih]
      simp [definitions]

/-- After each entry the writer is back at the margin; it has written the blocks so far, each with
a blank line at its end, and knows the names so far. -/
theorem writerAfter_eq (s : GeneratorSettings) (es : List (QualifiedName × Container)) :
    writerAfter s es =
      ⟨(preamble s :: definitions s s.externalNames es).flatMap (· ++ [""]), 0,
        (es.map fun e => e.1.fullName).reverse ++ s.externalNames⟩ := by
  have hpreamble : Writes ((preamble s).forM Step.line) fun _ => preamble s :=
    writes_lines fun l hl => (ended_preamble s l hl).ne_empty
  have hrun : writerAfter s es = ((es.forM (Step.entry s)).run ((Step.line "").run
      (((preamble s).forM Step.line).run { known := s.externalNames }).2).2).2 := rfl
  rw [hrun, hpreamble, run_blank, run_entries]
  simp

/-- The writer writes the blocks with empty lines between them. -/
theorem emit_eq (s : GeneratorSettings) (r : Registry) :
    emit s r = "\n\n".intercalate ((blocks s r).map joinLines) ++ "\n" := by
  have hlines : (writerAfter s r.items).lines = written s r := by
    rw [writerAfter_eq]
    rfl
  have hwritten : joinLines (written s r) =
      "\n\n".intercalate ((blocks s r).map joinLines) ++ "\n" :=
    joinLines_flatMap fun _ hb => ne_nil_of_mem_blocks hb
  rw [emit, hlines, hwritten, stripLineFeeds_append (ended_blocks s r)]

/-- What is written line by line is the source. -/
theorem source_eq_emit (s : GeneratorSettings) (r : Registry) :
    source s r = (r.validateReferences s.externalNames).map fun _ => emit s r := by
  rw [emit_eq, source]
  cases r.validateReferences s.externalNames <;> rfl

end ProviderTypes.Rust
