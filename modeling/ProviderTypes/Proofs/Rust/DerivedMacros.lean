import ProviderTypes.Proofs.Registry.History
import ProviderTypes.Proofs.Rust.Comments
import ProviderTypes.Proofs.Settings.Canonical

/-!
# ProviderTypes.Proofs.Rust.DerivedMacros

What the definitions of a source derive.  Each has one attribute for it, which lists the
macros of the settings and then those that its container derives anyway; a text of the
settings may list several macros between commas.  Reading settings refuses the texts that
name a macro which is derived anyway, so that without commas no attribute lists a macro
twice exactly when the settings do not (`derivesOnce_iff`).  They may
(`not_forall_derivesOnce`).

Macros are told apart by their spelling, and attributes are the lines that are written as
such: a name with a line break in it stays part of its line.
-/

namespace ProviderTypes

/-- A blank in front does not count. -/
theorem Settings.keepText_blank_append (text : String) :
    keepText (" " ++ text) = keepText text := by
  have hblank : isBlank ' ' = true := by decide
  simp [keepText, stripBlank, trimBlank, hblank]

namespace Rust

variable {s : GeneratorSettings} {r : Registry} {c : Container} {inner line : String}

/-! ## lists of macros -/

/-- The macros that a text lists between commas, without the blanks around them. -/
def macrosIn (text : String) : List String :=
  (text.toList.splitOn ',').flatMap fun part => Settings.keepText (.ofList part)

/-- A comma and a blank end one macro and start the next. -/
theorem macrosIn_append (first rest : String) :
    macrosIn (first ++ ", " ++ rest) = macrosIn first ++ macrosIn rest := by
  have hsplit : (first ++ ", " ++ rest).toList.splitOn ',' =
      first.toList.splitOn ',' ++ (' ' :: rest.toList).splitOn ',' := by
    rw [String.toList_append, String.toList_append, List.append_assoc]
    exact List.splitOn_append_cons_self _ _
  obtain ⟨part, parts, hparts⟩ := List.exists_cons_of_ne_nil (List.splitOn_ne_nil ',' rest.toList)
  rw [macrosIn, macrosIn, macrosIn, hsplit, List.flatMap_append, hparts]
  simp [List.splitOn_cons_eq_if_modifyHead, hparts, Settings.keepText_blank_append]

/-- A list of texts lists the macros of its texts. -/
theorem macrosIn_commaSeparated (names : List String) :
    macrosIn (commaSeparated names) = names.flatMap macrosIn := by
  unfold commaSeparated
  induction names with
  | nil => rfl
  | cons name names ih =>
      cases names with
      | nil => simp
      | cons next names =>
          rw [String.intercalate_cons_cons, macrosIn_append, ih, ← List.flatMap_cons]

example : macrosIn (commaSeparated ["Clone", "Debug,Eq"]) = ["Clone", "Debug", "Eq"] := by
  decide +kernel

/-- A name without blanks around it and without commas is one macro. -/
theorem macrosIn_eq_singleton {name : String} (hname : IsStripped name)
    (hcomma : ',' ∉ name.toList) : macrosIn name = [name] := by
  rw [macrosIn, List.splitOn_eq_singleton hcomma]
  simp [Settings.keepText_eq_self hname]

/-- Names without blanks around them and without commas stay what they are. -/
theorem flatMap_macrosIn_eq_self {names : List String} (hstripped : ∀ name ∈ names, IsStripped name)
    (hcomma : ∀ name ∈ names, ',' ∉ name.toList) : names.flatMap macrosIn = names := by
  induction names with
  | nil => rfl
  | cons name names ih =>
      rw [List.forall_mem_cons] at hstripped hcomma
      rw [List.flatMap_cons, macrosIn_eq_singleton hstripped.1 hcomma.1, ih hstripped.2 hcomma.2]
      rfl

/-! ## attributes -/

/-- The attribute that derives these macros. -/
def deriveLine (inner : String) : String := "#[derive(" ++ inner ++ ")]"

/-- A line of derives tells what is derived. -/
theorem deriveLine_inj {other : String} : deriveLine inner = deriveLine other ↔ inner = other := by
  simp [deriveLine]

/-- The third character of a line, which tells the attribute from all other lines. -/
def third (line : String) : Option Char := line.toList[2]?

/-- The third character does not depend on what follows. -/
theorem third_append {text : String} {d : Char} (h : third text = some d) (rest : String) :
    third (text ++ rest) = some d := by
  obtain ⟨hlength, -⟩ := List.getElem?_eq_some_iff.1 h
  rw [third, String.toList_append, List.getElem?_append_left hlength]
  exact h

theorem third_deriveLine (inner : String) : third (deriveLine inner) = some 'd' := by
  unfold deriveLine
  rw [String.append_assoc]
  exact third_append (by decide +kernel) _

theorem third_renameLine (name : String) : third (renameLine name) = some 's' := by
  unfold renameLine
  rw [String.append_assoc]
  exact third_append (by decide +kernel) _

/-- Further lines begin with blanks. -/
theorem third_of_mem_map_indent {ls : List String} (h : line ∈ ls.map indent) :
    third line = some ' ' := by
  obtain ⟨inside, -, rfl⟩ := List.mem_map.1 h
  exact third_append (by decide +kernel) _

/-- A definition opens with a keyword, after the mark of a public item where there is one. -/
theorem third_visibility {keyword : String} (hkeyword : ∃ d ≠ 'd', third keyword = some d)
    (s : GeneratorSettings) (rest : String) :
    third (visibility s ++ keyword ++ rest) ≠ some 'd' := by
  obtain ⟨d, hd, hthird⟩ := hkeyword
  unfold visibility
  split
  · rw [String.append_assoc, third_append (show third "pub " = some 'b' by decide +kernel)]
    decide
  · rw [String.empty_append, third_append hthird]
    simpa using hd

/-- No line of the preamble is such an attribute, though one starts with the same character. -/
theorem third_preamble (s : GeneratorSettings) : ∀ l ∈ preamble s, third l ≠ some 'd' := by
  have hmodule : third ("//! Serde bindings for module `" ++ s.moduleName ++ "`.") = some '!' := by
    rw [String.append_assoc]
    exact third_append (by decide +kernel) _
  have hoptional : ∀ (p : Prop) [Decidable p] (l : String), third l ≠ some 'd' →
      ∀ k ∈ if p then [] else [l], third k ≠ some 'd' := by
    intro p _ l hl
    split <;> simp [hl]
  have himport : ∀ l ∈ s.externalDefinitions.filterMap fun e => importLine? e.1 e.2,
      third l ≠ some 'd' := by
    intro l hl
    obtain ⟨e, -, he⟩ := List.mem_filterMap.1 hl
    unfold importLine? at he
    split at he
    · cases he
    · cases he
      simp only [String.append_assoc]
      rw [third_append (show third "use " = some 'e' by decide +kernel)]
      decide
  simp only [preamble, List.forall_mem_append, List.forall_mem_cons]
  exact ⟨⟨⟨⟨⟨by rw [hmodule]; decide, by decide +kernel, by simp⟩,
    hoptional _ _ (by decide +kernel)⟩, by decide +kernel, by simp⟩,
    hoptional _ _ (by decide +kernel)⟩, himport⟩

/-- No line inside a definition is one of derives. -/
theorem third_bodyLines (s : GeneratorSettings) (known : List String) (name : String)
    (c : Container) : ∀ l ∈ bodyLines s known name c, third l ≠ some 'd' := by
  have hstruct : ∀ rest, third (visibility s ++ "struct " ++ rest) ≠ some 'd' :=
    third_visibility ⟨'r', by decide, by decide +kernel⟩ s
  have henum : ∀ rest, third (visibility s ++ "enum " ++ rest) ≠ some 'd' :=
    third_visibility ⟨'u', by decide, by decide +kernel⟩ s
  have hindented : ∀ ls : List String, ∀ l ∈ ls.map indent, third l ≠ some 'd' :=
    fun ls l hl => by simp [third_of_mem_map_indent hl]
  cases c <;> simp only [bodyLines, List.forall_mem_append, List.forall_mem_singleton]
  case unit => simpa only [String.append_assoc] using hstruct (name ++ ";")
  case newtype f =>
    simpa only [String.append_assoc] using
      hstruct (name ++ "(" ++ visibility s ++ typeText (some known) f ++ ");")
  case record fields =>
    exact ⟨⟨by simpa only [String.append_assoc] using hstruct (name ++ " \x7b"), hindented _⟩,
      by decide⟩
  case union variants =>
    exact ⟨⟨by simpa only [String.append_assoc] using henum (name ++ " \x7b"), hindented _⟩,
      by decide⟩

/-- The attribute stands at the head of a definition, and nowhere else in it. -/
theorem deriveLine_mem_definition {known : List String} {key : QualifiedName} :
    deriveLine inner ∈ definition s known key c ↔ inner = commaSeparated (derives s c) := by
  have hbody : deriveLine inner ∉ bodyLines s known key.fullName c :=
    fun hmem => third_bodyLines _ _ _ _ _ hmem (third_deriveLine inner)
  have hrename : ∀ name, deriveLine inner ≠ renameLine name := by
    intro name heq
    have hthird := third_deriveLine inner
    rw [heq, third_renameLine] at hthird
    exact absurd hthird (by decide)
  have hhead : deriveLine inner ∈ headLines s key c ↔ inner = commaSeparated (derives s c) := by
    -- behind it there is at most the attribute that keeps the local name
    have hfirst : "#[derive(" ++ commaSeparated (derives s c) ++ ")]" =
        deriveLine (commaSeparated (derives s c)) := rfl
    rw [headLines, hfirst, List.mem_append, List.mem_singleton, deriveLine_inj]
    refine or_iff_left ?_
    cases key.scope with
    | none => simp
    | some scope => by_cases h : scope = "" <;> simp [h, hrename]
  rw [definition, List.mem_append, hhead]
  exact or_iff_left hbody

/-- The lines of derives in definitions are those of the entries. -/
theorem deriveLine_mem_definitions (known : List String) (es : List Registry.Entry) :
    (∃ block ∈ definitions s known es, deriveLine inner ∈ block) ↔
      ∃ e ∈ es, inner = commaSeparated (derives s e.2) := by
  induction es generalizing known with
  | nil => simp [definitions]
  | cons e es ih =>
      rw [definitions, List.exists_mem_cons_iff, List.exists_mem_cons_iff, ih,
        deriveLine_mem_definition]

/-- The lines of a source have the attributes of its entries, and no others. -/
theorem deriveLine_mem_written :
    deriveLine inner ∈ written s r ↔ ∃ e ∈ r.items, inner = commaSeparated (derives s e.2) := by
  have hpreamble : deriveLine inner ∉ preamble s :=
    fun hmem => third_preamble s _ hmem (third_deriveLine inner)
  have hblank : deriveLine inner ≠ "" := by simp [deriveLine]
  rw [← deriveLine_mem_definitions s.externalNames]
  simp [written, blocks, hpreamble, hblank]

/-! ## macros of a definition -/

/-- The macros that a container derives whatever the settings say. -/
def alwaysDerived : Container → List String
  | .record _ => ["Serialize", "Deserialize", "Default"]
  | _ => ["Serialize", "Deserialize"]

/-- What is always derived are at most three macros. -/
theorem alwaysDerived_sublist (c : Container) :
    (alwaysDerived c).Sublist ["Serialize", "Deserialize", "Default"] := by
  cases c <;> simp [alwaysDerived]

/-- Settings that list no macro which is derived anyway leave it to the container. -/
theorem derives_eq (h : s.Canonical) (c : Container) :
    derives s c = s.deriveMacros ++ alwaysDerived c := by
  have hdefault : "Default" ∉ s.deriveMacros := fun hmem => h.notDerived _ hmem (by decide)
  cases c <;> simp [derives, alwaysDerived, hdefault]

/-- A line of derives holds the macros of the settings and those that are always derived. -/
theorem macrosIn_derives (h : s.Canonical) (c : Container) :
    macrosIn (commaSeparated (derives s c)) =
      s.deriveMacros.flatMap macrosIn ++ alwaysDerived c := by
  have hwords : ∀ name ∈ ["Serialize", "Deserialize", "Default"],
      IsStripped name ∧ ',' ∉ name.toList := by decide
  have halways : (alwaysDerived c).flatMap macrosIn = alwaysDerived c :=
    flatMap_macrosIn_eq_self
      (fun name hname => (hwords name ((alwaysDerived_sublist c).subset hname)).1)
      fun name hname => (hwords name ((alwaysDerived_sublist c).subset hname)).2
  rw [macrosIn_commaSeparated, derives_eq h, List.flatMap_append, halways]

/-- Each attribute among these lines that derives macros lists each of them once. -/
def DerivesOnce (lines : List String) : Prop :=
  ∀ inner, deriveLine inner ∈ lines → (macrosIn inner).Nodup

/-- Nothing is derived twice exactly when each entry derives nothing twice. -/
theorem derivesOnce_written (h : s.Canonical) (r : Registry) :
    DerivesOnce (written s r) ↔
      ∀ e ∈ r.items, (s.deriveMacros.flatMap macrosIn ++ alwaysDerived e.2).Nodup := by
  simp only [DerivesOnce, deriveLine_mem_written]
  constructor
  · intro honce e he
    rw [← macrosIn_derives h]
    exact honce _ ⟨e, he, rfl⟩
  · rintro honce inner ⟨e, he, rfl⟩
    rw [macrosIn_derives h]
    exact honce e he

/-- With what is always derived, the macros of accepted settings are distinct when they are on their
own. -/
theorem nodup_append_alwaysDerived (h : s.Canonical) (c : Container) :
    (s.deriveMacros ++ alwaysDerived c).Nodup ↔ s.deriveMacros.Nodup := by
  rw [List.nodup_append]
  have halways : (alwaysDerived c).Nodup := (alwaysDerived_sublist c).nodup (by decide)
  refine ⟨fun hnodup => hnodup.1, fun hnodup => ⟨hnodup, halways, ?_⟩⟩
  rintro name hname _ hother rfl
  exact h.notDerived name hname ((alwaysDerived_sublist c).subset hother)

/-- In a source, each entry has one attribute that derives macros, which lists those of the settings
and then those that its container derives anyway.  Each macro is listed once when the macros of the
settings, read between commas, repeat neither each other nor one of these; without commas this only
takes that the settings list no macro twice. -/
theorem derivesOnce_iff {v : Yaml.Value} {g : GeneratorSettings} {f : FlatteningSettings}
    {text : String} (h : Settings.ofValue v = .ok (g, f)) (hsource : source g r = .ok text) :
    text = joinLines (written g r) ∧
      (∀ inner, deriveLine inner ∈ written g r ↔
        ∃ e ∈ r.items, inner = commaSeparated (g.deriveMacros ++ alwaysDerived e.2)) ∧
      (DerivesOnce (written g r) ↔
        ∀ e ∈ r.items, (g.deriveMacros.flatMap macrosIn ++ alwaysDerived e.2).Nodup) ∧
      ((∀ name ∈ g.deriveMacros, ',' ∉ name.toList) →
        (DerivesOnce (written g r) ↔ r.items = [] ∨ g.deriveMacros.Nodup)) := by
  obtain ⟨hg, -⟩ := Settings.canonical_of_ofValue h
  refine ⟨?_, fun inner => ?_, derivesOnce_written hg r, fun hcomma => ?_⟩
  · rw [source_eq_joinLines] at hsource
    obtain ⟨-, -, htext⟩ := map_eq_ok.1 hsource
    exact htext.symm
  · simp only [deriveLine_mem_written, derives_eq hg]
  · rw [derivesOnce_written hg, flatMap_macrosIn_eq_self hg.deriveMacros hcomma]
    simp only [nodup_append_alwaysDerived hg]
    cases r.items with
    | nil => simp
    | cons e es =>
        simp only [reduceCtorEq, false_or]
        exact ⟨fun hall => hall e List.mem_cons_self, fun hnodup _ _ => hnodup⟩

/-- Settings of which only the macros are written. -/
def derivingValue (names : List String) : Yaml.Value :=
  .ofMembers [("generator", .ofMembers [("derive_macros", .ofTexts names)])]

/-- A type without a value and a record without fields. -/
def shelf : Registry :=
  Registry.after [.insert ⟨none, "mark"⟩ .unit, .insert ⟨none, "page"⟩ (.record .empty)]
    (.empty .error)

theorem source_shelf (names : List String) :
    source { deriveMacros := names } shelf =
      .ok (joinLines (written { deriveMacros := names } shelf)) := by
  have hvalid : shelf.validateReferences [] = .ok () := by decide +kernel
  rw [source_eq_joinLines]
  change (shelf.validateReferences []).map _ = _
  rw [hvalid]
  rfl

/-- Settings with distinct macros, and what is written with them. -/
theorem derivesOnce_iff_shelf :
    Settings.ofValue (derivingValue ["Clone", "Debug"]) =
        .ok ({ deriveMacros := ["Clone", "Debug"] }, {}) ∧
      (∃ text, source { deriveMacros := ["Clone", "Debug"] } shelf = .ok text) ∧
      DerivesOnce (written { deriveMacros := ["Clone", "Debug"] } shelf) := by
  have hvalue : Settings.ofValue (derivingValue ["Clone", "Debug"]) =
      .ok ({ deriveMacros := ["Clone", "Debug"] }, {}) := by rfl
  obtain ⟨-, -, -, honce⟩ := derivesOnce_iff hvalue (source_shelf _)
  exact ⟨hvalue, ⟨_, source_shelf _⟩, (honce (by decide)).2 (.inr (by decide))⟩

/-- An attribute may list a macro twice: the settings may. -/
theorem not_forall_derivesOnce :
    ¬ ∀ (v : Yaml.Value) (g : GeneratorSettings) (f : FlatteningSettings) (r : Registry)
      (text : String), Settings.ofValue v = .ok (g, f) → source g r = .ok text →
        DerivesOnce (written g r) := by
  intro hall
  have hvalue : Settings.ofValue (derivingValue ["Clone", "Clone"]) =
      .ok ({ deriveMacros := ["Clone", "Clone"] }, {}) := by rfl
  have honce := hall _ _ _ shelf _ hvalue (source_shelf _)
  rw [derivesOnce_written (Settings.canonical_of_ofValue hvalue).1] at honce
  exact absurd honce (by decide +kernel)

end Rust

end ProviderTypes
