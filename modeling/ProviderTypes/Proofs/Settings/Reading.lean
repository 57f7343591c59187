import ProviderTypes.Proofs.Except
import ProviderTypes.Proofs.Text.Stripped
import ProviderTypes.Settings.Loader
import Mathlib.Tactic.SplitIfs

/-!
# ProviderTypes.Proofs.Settings.Reading

What the readers of single settings answer.  Each section is read exactly when each of
its settings is (`readGenerator_eq_ok_iff`, `readFlattening_eq_ok_iff`); a list of
names is what its value lists, without blanks (`eq_namesIn_of_readTexts`), and the
modules are those of the entries, the later written over the earlier
(`modules_of_readModules`).
-/

namespace ProviderTypes

/-! ## parts of a value -/

namespace Yaml.Value

def text? : Value → Option String
  | .atom a => a.text?
  | _ => none

/-- The texts that a value lists: itself, or its items. -/
def listed : Value → List String
  | .list items => items.filterMap text?
  | v => v.text?.toList

/-- The entries of a mapping. -/
def entries : Value → List (Atom × Value)
  | .map entries => entries
  | _ => []

/-- The value at the end of a path of names. -/
def at? (v : Value) : List String → Option Value
  | [] => some v
  | name :: path => (Value.entry? v.entries name).bind fun w => w.at? path

theorem at?_singleton (v : Value) (name : String) : v.at? [name] = entry? v.entries name := by
  simp [at?]

end Yaml.Value

namespace Settings

open Yaml (Atom Value)

variable {field name : String} {sec : Section} {v : Value} {o : Option Value}

/-! ## single texts -/

/-- A text is read without the blanks around it, unless nothing remains. -/
theorem readText_eq_ok_iff {s : String} :
    readText field v = .ok s ↔ ∃ t, v = .atom (.text t) ∧ stripBlank t = s ∧ s ≠ "" := by
  unfold readText
  split
  · next t =>
    by_cases h : stripBlank t = ""
    · rw [if_pos h]
      simp only [reduceCtorEq, false_iff]
      rintro ⟨_, ht, rfl, hne⟩
      cases ht
      exact hne h
    · rw [if_neg h]
      constructor
      · rintro ⟨⟩
        exact ⟨t, rfl, rfl, h⟩
      · rintro ⟨_, ht, rfl, -⟩
        cases ht
        rfl
  · next hv =>
    simp only [reduceCtorEq, false_iff]
    rintro ⟨t, rfl, -⟩
    exact hv t rfl

/-- A text that is read is stripped. -/
theorem isStripped_of_readText {s : String} (h : readText field v = .ok s) : IsStripped s := by
  obtain ⟨t, -, rfl, hne⟩ := readText_eq_ok_iff.1 h
  exact isStripped_stripBlank hne

/-- A stripped text is read as it is. -/
theorem readText_text {s : String} (h : IsStripped s) :
    readText field (.atom (.text s)) = .ok s :=
  readText_eq_ok_iff.2 ⟨s, rfl, h.stripBlank_eq, h.ne_empty⟩

/-- An accepted text has no blanks around it, if the default one has none. -/
theorem isStripped_of_textOr {default s : String} (hdefault : IsStripped default)
    (h : textOr sec name field default = .ok s) : IsStripped s := by
  unfold textOr at h
  cases hentry : Value.entry? sec name with
  | none =>
    rw [hentry] at h
    cases h
    exact hdefault
  | some v =>
    rw [hentry] at h
    exact isStripped_of_readText h

/-- A template is a text with one placeholder. -/
theorem templateOr_eq_ok_iff {default s : String} :
    templateOr sec name field default = .ok s ↔
      textOr sec name field default = .ok s ∧ Template.count s = 1 := by
  rw [templateOr, bind_eq_ok]
  constructor
  · rintro ⟨t, ht, h⟩
    by_cases hcount : Template.count t = 1
    · rw [if_pos hcount] at h
      cases h
      exact ⟨ht, hcount⟩
    · rw [if_neg hcount] at h
      cases h
  · rintro ⟨hs, hcount⟩
    exact ⟨s, hs, if_pos hcount⟩

/-! ## lists of names -/

/-- The names that a value lists: its texts without the blanks around them, unless nothing
    is left. -/
def namesIn (v : Value) : List String := v.listed.flatMap keepText

/-- A text is kept without the blanks around it, unless nothing remains. -/
theorem mem_keepText {s t : String} : t ∈ keepText s ↔ stripBlank s = t ∧ t ≠ "" := by
  unfold keepText
  by_cases h : stripBlank s = ""
  · rw [if_pos h]
    simp only [List.not_mem_nil, false_iff]
    rintro ⟨rfl, hne⟩
    exact hne h
  · rw [if_neg h, List.mem_singleton]
    constructor
    · rintro rfl
      exact ⟨rfl, h⟩
    · rintro ⟨rfl, -⟩
      rfl

theorem keepText_eq_self {s : String} (h : IsStripped s) : keepText s = [s] := by
  rw [keepText, h.stripBlank_eq, if_neg h.ne_empty]

/-- The names in a value are its texts without the blanks around them, except empty ones. -/
theorem mem_namesIn {t : String} :
    t ∈ namesIn v ↔ ∃ s ∈ v.listed, stripBlank s = t ∧ t ≠ "" := by
  simp only [namesIn, List.mem_flatMap, mem_keepText]

theorem isStripped_of_mem_namesIn {t : String} (h : t ∈ namesIn v) : IsStripped t := by
  obtain ⟨s, -, rfl, hne⟩ := mem_namesIn.1 h
  exact isStripped_stripBlank hne

/-- Texts that are read are those that are kept. -/
theorem eq_of_readTextItems {items : List Value} {names : List String}
    (h : readTextItems field items = .ok names) :
    names = (items.filterMap Value.text?).flatMap keepText := by
  induction items generalizing names with
  | nil =>
    cases h
    rfl
  | cons item rest ih =>
    unfold readTextItems at h
    split at h
    · cases ‹_ :: _ = []›
    · next heq =>
      cases heq
      obtain ⟨others, hothers, h⟩ := bind_eq_ok.1 h
      cases h
      rw [ih hothers]
      rfl
    · cases h

/-- A list of names is what its value lists. -/
theorem eq_namesIn_of_readTexts {names : List String} (h : readTexts field v = .ok names) :
    names = namesIn v := by
  unfold readTexts at h
  split at h
  · next s =>
    cases h
    exact (List.append_nil _).symm
  · exact eq_of_readTextItems h
  · split at h
    · cases h
      rfl
    · cases h
  · cases h

/-- A list of names that is not written is the default, else what its value lists. -/
theorem eq_of_textsOr {default names : List String}
    (h : textsOr sec name field default = .ok names) :
    names = ((Value.entry? sec name).map namesIn).getD default := by
  unfold textsOr at h
  cases hentry : Value.entry? sec name with
  | none =>
    rw [hentry] at h
    cases h
    rfl
  | some v =>
    rw [hentry] at h
    exact eq_namesIn_of_readTexts h

/-- A set of words that is not written, or null, is the default, else it has the names that
    its value lists. -/
theorem cases_of_wordsOr {default words : NameSet}
    (h : wordsOr sec name field default = .ok words) :
    (∀ v, Value.entry? sec name = some v → v = .atom .null) ∧ words = default ∨
      ∃ v, Value.entry? sec name = some v ∧ v ≠ .atom .null ∧ words = .ofNames (namesIn v) := by
  unfold wordsOr at h
  split at h
  · next hentry =>
    cases h
    exact .inl ⟨fun v hv => by simp [hentry] at hv, rfl⟩
  · next hentry =>
    cases h
    exact .inl ⟨fun v hv => Option.some.inj (hv.symm.trans hentry), rfl⟩
  · next v hnull hentry =>
    obtain ⟨names, hnames, rfl⟩ := map_eq_ok.1 h
    rw [eq_namesIn_of_readTexts hnames]
    exact .inr ⟨v, hentry, hnull, rfl⟩

/-- Macros are accepted when none of them is derived anyway. -/
theorem checkMacros_eq_ok_iff {names : List String} :
    checkMacros names = .ok () ↔
      ∀ name ∈ names, name ∉ ["Serialize", "Deserialize", "Default"] := by
  unfold checkMacros
  split_ifs with hserialize hdeserialize hdefault
  · exact ⟨nofun, fun h => absurd (h _ hserialize) (by simp)⟩
  · exact ⟨nofun, fun h => absurd (h _ hdeserialize) (by simp)⟩
  · exact ⟨nofun, fun h => absurd (h _ hdefault) (by simp)⟩
  · refine ⟨fun _ name hname hmem => ?_, fun _ => rfl⟩
    simp only [List.mem_cons, List.not_mem_nil, or_false] at hmem
    rcases hmem with rfl | rfl | rfl
    · exact hserialize hname
    · exact hdeserialize hname
    · exact hdefault hname

/-! ## modules -/

/-- The module of an entry, with the names that it provides. -/
def moduleOf (e : Atom × Value) : String × List String :=
  (stripBlank (e.1.text?.getD ""), namesIn e.2)

/-- All keys are texts, and the modules of the entries are written one after the other. -/
theorem modules_of_readModules {before modules : Members (List String)} {entries : Section}
    (h : readModules before entries = .ok modules) :
    (∀ e ∈ entries, ∃ key, e.1 = .text key) ∧
      modules = before.putAll (entries.map moduleOf) := by
  induction entries generalizing before with
  | nil =>
    cases h
    exact ⟨by simp, rfl⟩
  | cons e rest ih =>
    unfold readModules at h
    split at h
    · cases ‹_ :: _ = []›
    · next heq =>
      cases heq
      obtain ⟨names, hnames, h⟩ := bind_eq_ok.1 h
      obtain ⟨hrest, rfl⟩ := ih h
      rw [eq_namesIn_of_readTexts hnames]
      exact ⟨List.forall_mem_cons.2 ⟨⟨_, rfl⟩, hrest⟩, rfl⟩
    · cases h

/-! ## sections -/

/-- A section that is missing or null has no entries. -/
theorem entries_of_readSection (h : readSection field o = .ok sec) :
    sec = (o.map Value.entries).getD [] := by
  unfold readSection at h
  split at h
  · cases h
    rfl
  · cases h
    rfl
  · cases h
    rfl
  · cases h

/-- The settings of the generator are read when each of them is. -/
theorem readGenerator_eq_ok_iff {g : GeneratorSettings} :
    readGenerator o = .ok g ↔
      ∃ sec modules, readSection "generator" o = .ok sec ∧
        textOr sec "module_name" "generator.module_name" "default" = .ok g.moduleName ∧
        choiceOr sec "output_format" "generator.output_format" .rust OutputFormat.text
          OutputFormat.all = .ok g.outputFormat ∧
        textsOr sec "derive_macros" "generator.derive_macros"
          ["Clone", "Debug", "PartialEq", "PartialOrd"] = .ok g.deriveMacros ∧
        checkMacros g.deriveMacros = .ok () ∧
        flagOr sec "track_visibility" "generator.track_visibility" true =
          .ok g.trackVisibility ∧
        flagOr sec "emit_docs" "generator.emit_docs" true = .ok g.emitDocs ∧
        readSection "generator.external_definitions"
          (Value.entry? sec "external_definitions") = .ok modules ∧
        readModules [] modules = .ok g.externalDefinitions := by
  simp only [readGenerator, bind_eq_ok]
  constructor
  · rintro ⟨sec, hsec, moduleName, hname, format, hformat, macros, hmacros, ⟨⟩, hcheck,
      visibility, hvisibility, docs, hdocs, modules, hmodules, external, hexternal, h⟩
    cases h
    exact ⟨sec, modules, hsec, hname, hformat, hmacros, hcheck, hvisibility, hdocs, hmodules,
      hexternal⟩
  · rintro ⟨sec, modules, hsec, hname, hformat, hmacros, hcheck, hvisibility, hdocs, hmodules,
      hexternal⟩
    exact ⟨sec, hsec, _, hname, _, hformat, _, hmacros, (), hcheck, _, hvisibility, _, hdocs,
      modules, hmodules, _, hexternal, rfl⟩

/-- The settings of flattening are read when each of them is. -/
theorem readFlattening_eq_ok_iff {f : FlatteningSettings} :
    readFlattening o = .ok f ↔
      ∃ sec, readSection "flattening" o = .ok sec ∧
        wordsOr sec "reserved_words" "flattening.reserved_words" (.ofNames rustReservedWords) =
          .ok f.escapes.reservedWords ∧
        templateOr sec "reserved_word_escape" "flattening.reserved_word_escape"
          "r#\x7bname\x7d" = .ok f.escapes.reservedWordEscape ∧
        wordsOr sec "path_keywords" "flattening.path_keywords" (.ofNames rustPathKeywords) =
          .ok f.escapes.pathKeywords ∧
        templateOr sec "path_keyword_escape" "flattening.path_keyword_escape"
          "\x7bname\x7d_" = .ok f.escapes.pathKeywordEscape ∧
        flagOr sec "inject_meta_attributes" "flattening.inject_meta_attributes" true =
          .ok f.injectMetaAttributes ∧
        choiceOr sec "on_duplicate" "flattening.on_duplicate" .error DuplicatePolicy.text
          DuplicatePolicy.all = .ok f.onDuplicate := by
  simp only [readFlattening, bind_eq_ok]
  constructor
  · rintro ⟨sec, hsec, reserved, hreserved, escape, hescape, keywords, hkeywords, pathEscape,
      hpathEscape, inject, hinject, policy, hpolicy, h⟩
    cases h
    exact ⟨sec, hsec, hreserved, hescape, hkeywords, hpathEscape, hinject, hpolicy⟩
  · rintro ⟨sec, hsec, hreserved, hescape, hkeywords, hpathEscape, hinject, hpolicy⟩
    exact ⟨sec, hsec, _, hreserved, _, hescape, _, hkeywords, _, hpathEscape, _, hinject, _,
      hpolicy, rfl⟩

/-- Settings are read from a mapping when both sections are. -/
theorem ofValue_map_eq_ok_iff {entries : Section} {g : GeneratorSettings}
    {f : FlatteningSettings} :
    ofValue (.map entries) = .ok (g, f) ↔
      checkSections entries = .ok () ∧
        readGenerator (Value.entry? entries "generator") = .ok g ∧
        readFlattening (Value.entry? entries "flattening") = .ok f := by
  simp only [ofValue, bind_eq_ok, mapError_eq_ok]
  constructor
  · rintro ⟨_, ⟨⟩, ⟨⟩, hsections, _, hgenerator, _, hflattening, h⟩
    cases h
    exact ⟨hsections, hgenerator, hflattening⟩
  · rintro ⟨hsections, hgenerator, hflattening⟩
    exact ⟨_, rfl, (), hsections, _, hgenerator, _, hflattening, rfl⟩

/-- Settings that are read come from the two sections of the value. -/
theorem sections_of_ofValue {g : GeneratorSettings} {f : FlatteningSettings}
    (h : ofValue v = .ok (g, f)) :
    readGenerator (v.at? ["generator"]) = .ok g ∧
      readFlattening (v.at? ["flattening"]) = .ok f := by
  rw [Value.at?_singleton, Value.at?_singleton]
  cases v with
  | atom a =>
    cases a with
    | null =>
      have hempty : ofValue (.map []) = .ok (g, f) := h
      exact (ofValue_map_eq_ok_iff.1 hempty).2
    | _ => cases h
  | map entries => exact (ofValue_map_eq_ok_iff.1 h).2
  | _ => cases h

/-- What is loaded from a file is read from some value. -/
theorem exists_ofValue_of_load {σ : Type} {m : Machine σ} {d : σ} {path : Path}
    {c : Configuration} (h : load m d path = .ok c) :
    ∃ v, ofValue v = .ok (c.generator, c.flattening) := by
  unfold load at h
  split at h
  · cases h
  · cases h
  · split at h
    · cases h
    · split at h
      · cases h
      · obtain ⟨⟨g, f⟩, hsettings, h⟩ := bind_eq_ok.1 h
        cases h
        unfold ofText at hsettings
        split at hsettings
        · cases hsettings
        · cases hsettings
        · exact ⟨_, hsettings⟩

end Settings

end ProviderTypes
