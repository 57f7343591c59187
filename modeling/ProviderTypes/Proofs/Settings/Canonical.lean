import ProviderTypes.Proofs.Members.Writing
import ProviderTypes.Proofs.Settings.Reading
import ProviderTypes.Proofs.Text.Placeholder

/-!
# ProviderTypes.Proofs.Settings.Canonical

The settings that can be read.  Their names are stripped of blanks, no macro is listed
that is derived anyway, and a template holds the placeholder in one place
(`GeneratorSettings.Canonical`, `FlatteningSettings.Canonical`).  Written back as a
mapping they are read again as they are, whatever the order of the words of a set
(`ofValue_written`); so the canonical settings are exactly those that are read from some
value (`exists_ofValue_iff_canonical`).
-/

namespace ProviderTypes

namespace NameSet

theorem mem_names_iff {words : NameSet} {name : String} :
    name ∈ words.names ↔ OrderedMap.contains words name = true := by
  rw [names, OrderedMap.mem_keys_iff, OrderedMap.contains, Option.isSome_iff_exists]

/-- A set has the names that it was made of. -/
theorem mem_names_ofNames_iff {names : List String} {name : String} :
    name ∈ (ofNames names).names ↔ name ∈ names := by
  rw [mem_names_iff, contains_ofNames_iff]

/-- The set of its own names, in any order, is the set itself. -/
theorem ofNames_of_perm {names : List String} {words : NameSet} (h : names.Perm words.names) :
    ofNames names = words := by
  refine OrderedMap.ext_get? fun name => ?_
  have hcontains : OrderedMap.contains (ofNames names) name = true ↔
      OrderedMap.contains words name = true := by
    rw [contains_ofNames_iff, h.mem_iff, mem_names_iff]
  unfold OrderedMap.contains at hcontains
  cases hnew : OrderedMap.get? (ofNames names) name <;>
    cases hold : OrderedMap.get? words name <;> simp_all

end NameSet

/-! ## canonical settings -/

/-- A template without blanks around it, in which there is one place for the name. -/
structure IsTemplate (s : String) : Prop where
  stripped : IsStripped s
  once : Template.OccursOnce placeholder.toList s.toList

/-- All texts are stripped, no macro is derived anyway, and each module is there once. -/
structure GeneratorSettings.Canonical (g : GeneratorSettings) : Prop where
  moduleName : IsStripped g.moduleName
  deriveMacros : ∀ name ∈ g.deriveMacros, IsStripped name
  notDerived : ∀ name ∈ g.deriveMacros, name ∉ ["Serialize", "Deserialize", "Default"]
  externalNames : ∀ name ∈ g.externalNames, IsStripped name
  modulePaths : ∀ path ∈ g.externalDefinitions.names, stripBlank path = path
  modules : g.externalDefinitions.names.Nodup

/-- All words are stripped, and the escapes are templates. -/
structure FlatteningSettings.Canonical (f : FlatteningSettings) : Prop where
  reservedWords : ∀ word ∈ f.escapes.reservedWords.names, IsStripped word
  reservedWordEscape : IsTemplate f.escapes.reservedWordEscape
  pathKeywords : ∀ word ∈ f.escapes.pathKeywords.names, IsStripped word
  pathKeywordEscape : IsTemplate f.escapes.pathKeywordEscape

/-! ## settings as a value -/

namespace Yaml.Value

def ofText (s : String) : Value := .atom (.text s)

def ofTexts (names : List String) : Value := .list (names.map ofText)

def ofMembers (m : Members Value) : Value := .map (m.map fun e => (.text e.1, e.2))

/-- Written members are found by their names. -/
theorem entry?_ofMembers (m : Members Value) (name : String) :
    entry? (ofMembers m).entries name = m.get? name := by
  induction m with
  | nil => rfl
  | cons e rest ih =>
    rw [Members.get?_cons, ← ih]
    by_cases h : name = e.1
    · subst h
      simp [Value.entry?, entries, ofMembers, Atom.text?]
    · simp [Value.entry?, entries, ofMembers, Atom.text?, h, Ne.symm h]

end Yaml.Value

open Yaml (Atom Value)

/-- The settings of the generator as members of a section. -/
def GeneratorSettings.written (g : GeneratorSettings) : Members Value :=
  [("module_name", .ofText g.moduleName),
    ("output_format", .ofText g.outputFormat.text),
    ("derive_macros", .ofTexts g.deriveMacros),
    ("track_visibility", .atom (.bool g.trackVisibility)),
    ("emit_docs", .atom (.bool g.emitDocs)),
    ("external_definitions",
      .ofMembers (g.externalDefinitions.map fun m => (m.1, .ofTexts m.2)))]

/-- The settings of flattening as members of a section, with the words of its sets in the
    order of these lists. -/
def FlatteningSettings.written (f : FlatteningSettings) (reservedWords pathKeywords : List String) :
    Members Value :=
  [("reserved_words", .ofTexts reservedWords),
    ("reserved_word_escape", .ofText f.escapes.reservedWordEscape),
    ("path_keywords", .ofTexts pathKeywords),
    ("path_keyword_escape", .ofText f.escapes.pathKeywordEscape),
    ("inject_meta_attributes", .atom (.bool f.injectMetaAttributes)),
    ("on_duplicate", .ofText f.onDuplicate.text)]

namespace Settings

/-- All settings as a mapping. -/
def written (g : GeneratorSettings) (f : FlatteningSettings)
    (reservedWords pathKeywords : List String) : Value :=
  .ofMembers [("generator", .ofMembers g.written),
    ("flattening", .ofMembers (f.written reservedWords pathKeywords))]

variable {field name : String} {sec : Section} {v : Value} {o : Option Value}
variable {g : GeneratorSettings} {f : FlatteningSettings}

/-! ## settings that are read -/

/-- A template that is accepted is one, if the default is. -/
theorem isTemplate_of_templateOr {default s : String} (hdefault : IsStripped default)
    (h : templateOr sec name field default = .ok s) : IsTemplate s := by
  obtain ⟨htext, hcount⟩ := templateOr_eq_ok_iff.1 h
  exact ⟨isStripped_of_textOr hdefault htext, Template.countChars_eq_one_iff.1 hcount⟩

/-- Accepted texts have no blanks around them, if the default ones have none. -/
theorem isStripped_of_textsOr {default names : List String}
    (hdefault : ∀ name ∈ default, IsStripped name)
    (h : textsOr sec name field default = .ok names) : ∀ name ∈ names, IsStripped name := by
  rw [eq_of_textsOr h]
  cases Value.entry? sec name with
  | none => exact hdefault
  | some v => exact fun _ => isStripped_of_mem_namesIn

/-- Accepted words have no blanks around them, if the default ones have none. -/
theorem isStripped_of_wordsOr {default : List String} {words : NameSet}
    (hdefault : ∀ word ∈ default, IsStripped word)
    (h : wordsOr sec name field (.ofNames default) = .ok words) :
    ∀ word ∈ words.names, IsStripped word := by
  obtain ⟨-, rfl⟩ | ⟨v, -, -, rfl⟩ := cases_of_wordsOr h
  · exact fun word hword => hdefault word (NameSet.mem_names_ofNames_iff.1 hword)
  · exact fun word hword => isStripped_of_mem_namesIn (NameSet.mem_names_ofNames_iff.1 hword)

/-- Accepted settings of the generator are in canonical form. -/
theorem canonical_of_readGenerator (h : readGenerator o = .ok g) : g.Canonical := by
  obtain ⟨sec, entries, -, hname, -, hmacros, hcheck, -, -, -, hmodules⟩ :=
    readGenerator_eq_ok_iff.1 h
  have hmodules : g.externalDefinitions = .collect (entries.map moduleOf) :=
    (modules_of_readModules hmodules).2
  -- whatever is written over, each module that remains is that of an entry
  have hmem : ∀ m ∈ g.externalDefinitions, ∃ e ∈ entries, moduleOf e = m := by
    intro m hm
    rw [hmodules] at hm
    exact List.mem_map.1 (Members.mem_of_mem_collect hm)
  constructor
  case moduleName => exact isStripped_of_textOr (by decide) hname
  case deriveMacros => exact isStripped_of_textsOr (by decide) hmacros
  case notDerived => exact checkMacros_eq_ok_iff.1 hcheck
  case externalNames =>
    intro name hname
    obtain ⟨m, hm, hname⟩ := List.mem_flatMap.1 hname
    obtain ⟨e, -, rfl⟩ := hmem m hm
    exact isStripped_of_mem_namesIn hname
  case modulePaths =>
    intro path hpath
    obtain ⟨m, hm, rfl⟩ := List.mem_map.1 hpath
    obtain ⟨e, -, rfl⟩ := hmem m hm
    exact stripBlank_stripBlank _
  case modules =>
    rw [hmodules]
    exact Members.nodup_collect _

/-- Accepted settings of flattening are in canonical form. -/
theorem canonical_of_readFlattening (h : readFlattening o = .ok f) : f.Canonical := by
  obtain ⟨sec, -, hreserved, hescape, hkeywords, hpathEscape, -⟩ := readFlattening_eq_ok_iff.1 h
  constructor
  case reservedWords => exact isStripped_of_wordsOr (by decide) hreserved
  case reservedWordEscape => exact isTemplate_of_templateOr (by decide) hescape
  case pathKeywords => exact isStripped_of_wordsOr (by decide) hkeywords
  case pathKeywordEscape => exact isTemplate_of_templateOr (by decide) hpathEscape

/-- Settings that are read are canonical. -/
theorem canonical_of_ofValue (h : ofValue v = .ok (g, f)) : g.Canonical ∧ f.Canonical :=
  ⟨canonical_of_readGenerator (sections_of_ofValue h).1,
    canonical_of_readFlattening (sections_of_ofValue h).2⟩

/-- Settings that are loaded from a file are canonical. -/
theorem canonical_of_load {σ : Type} {m : Machine σ} {d : σ} {path : Path} {c : Configuration}
    (h : load m d path = .ok c) : c.generator.Canonical ∧ c.flattening.Canonical := by
  obtain ⟨v, hv⟩ := exists_ofValue_of_load h
  exact canonical_of_ofValue hv

/-! ## settings that are written -/

/-- Written texts are read back. -/
theorem readTexts_ofTexts {names : List String} (h : ∀ name ∈ names, IsStripped name) :
    readTexts field (.ofTexts names) = .ok names := by
  change readTextItems field (names.map Value.ofText) = .ok names
  induction names with
  | nil => rfl
  | cons name rest ih =>
    obtain ⟨hname, hrest⟩ := List.forall_mem_cons.1 h
    simp only [List.map_cons, Value.ofText, readTextItems]
    exact bind_eq_ok.2 ⟨rest, ih hrest, by rw [keepText_eq_self hname]; rfl⟩

/-- Modules that are written are read one after the other. -/
theorem readModules_ofMembers {before modules : Members (List String)}
    (hpaths : ∀ path ∈ modules.names, stripBlank path = path)
    (hnames : ∀ m ∈ modules, ∀ name ∈ m.2, IsStripped name) :
    readModules before (Value.ofMembers (modules.map fun m => (m.1, .ofTexts m.2))).entries =
      .ok (before.putAll modules) := by
  induction modules generalizing before with
  | nil => rfl
  | cons m rest ih =>
    obtain ⟨hpath, hpaths⟩ := List.forall_mem_cons.1 hpaths
    obtain ⟨hname, hnames⟩ := List.forall_mem_cons.1 hnames
    refine bind_eq_ok.2 ⟨m.2, readTexts_ofTexts hname, ?_⟩
    rw [hpath]
    exact ih hpaths hnames

/-- A written text is read back. -/
theorem textOr_ofText {default s : String} (h : IsStripped s)
    (hentry : Value.entry? sec name = some (.ofText s)) :
    textOr sec name field default = .ok s := by
  rw [textOr, hentry]
  exact readText_text h

/-- A written template is read back. -/
theorem templateOr_ofText {default s : String} (h : IsTemplate s)
    (hentry : Value.entry? sec name = some (.ofText s)) :
    templateOr sec name field default = .ok s :=
  templateOr_eq_ok_iff.2
    ⟨textOr_ofText h.stripped hentry, Template.countChars_eq_one_iff.2 h.once⟩

/-- A written list of texts is read back. -/
theorem textsOr_ofTexts {default names : List String} (h : ∀ name ∈ names, IsStripped name)
    (hentry : Value.entry? sec name = some (.ofTexts names)) :
    textsOr sec name field default = .ok names := by
  rw [textsOr, hentry]
  exact readTexts_ofTexts h

/-- The words of a set are read in any order. -/
theorem wordsOr_ofTexts {default words : NameSet} {names : List String}
    (h : ∀ word ∈ words.names, IsStripped word) (hnames : names.Perm words.names)
    (hentry : Value.entry? sec name = some (.ofTexts names)) :
    wordsOr sec name field default = .ok words := by
  rw [wordsOr, hentry]
  refine map_eq_ok.2 ⟨names, readTexts_ofTexts fun word hword => ?_, NameSet.ofNames_of_perm hnames⟩
  exact h word (hnames.mem_iff.1 hword)

/-- A written truth value is read back. -/
theorem flagOr_bool {default b : Bool}
    (hentry : Value.entry? sec name = some (.atom (.bool b))) :
    flagOr sec name field default = .ok b := by
  rw [flagOr, hentry]

/-- A choice that is written is read. -/
theorem choiceOr_ofText {α : Type} {default c : α} {text : α → String} {choices : List α}
    (hstripped : IsStripped (text c))
    (hlower : String.ofList ((text c).toList.map Char.toLower) = text c)
    (hfind : choices.find? (fun d => text d = text c) = some c)
    (hentry : Value.entry? sec name = some (.ofText (text c))) :
    choiceOr sec name field default text choices = .ok c := by
  unfold choiceOr
  rw [hentry]
  exact bind_eq_ok.2 ⟨text c, readText_text hstripped, by simp only [hlower, hfind]; rfl⟩

/-- A written output format is read back. -/
theorem choiceOr_outputFormat {default c : OutputFormat}
    (hentry : Value.entry? sec name = some (.ofText c.text)) :
    choiceOr sec name field default OutputFormat.text OutputFormat.all = .ok c := by
  cases c <;> exact choiceOr_ofText (by decide) (by decide) (by decide) hentry

/-- A written policy is read back. -/
theorem choiceOr_duplicatePolicy {default c : DuplicatePolicy}
    (hentry : Value.entry? sec name = some (.ofText c.text)) :
    choiceOr sec name field default DuplicatePolicy.text DuplicatePolicy.all = .ok c := by
  cases c <;> exact choiceOr_ofText (by decide) (by decide) (by decide) hentry

/-- Written settings of the generator are read back. -/
theorem readGenerator_written (h : g.Canonical) :
    readGenerator (some (.ofMembers g.written)) = .ok g := by
  have hentry (name : String) :
      Value.entry? (Value.ofMembers g.written).entries name = g.written.get? name :=
    Value.entry?_ofMembers _ _
  have hnames : ∀ m ∈ g.externalDefinitions, ∀ name ∈ m.2, IsStripped name :=
    fun m hm name hname => h.externalNames name (List.mem_flatMap.2 ⟨m, hm, hname⟩)
  refine readGenerator_eq_ok_iff.2 ⟨(Value.ofMembers g.written).entries,
    (Value.ofMembers (g.externalDefinitions.map fun m => (m.1, .ofTexts m.2))).entries,
    rfl, ?_, ?_, ?_, ?_, ?_, ?_, ?_, ?_⟩
  · exact textOr_ofText h.moduleName (hentry _)
  · exact choiceOr_outputFormat (hentry _)
  · exact textsOr_ofTexts h.deriveMacros (hentry _)
  · exact checkMacros_eq_ok_iff.2 h.notDerived
  · exact flagOr_bool (hentry _)
  · exact flagOr_bool (hentry _)
  · rw [hentry]
    rfl
  · rw [readModules_ofMembers h.modulePaths hnames]
    exact congrArg Except.ok (Members.collect_eq_self h.modules)

/-- Written settings of flattening are read back, whatever the order of the words. -/
theorem readFlattening_written (h : f.Canonical) {reservedWords pathKeywords : List String}
    (hreserved : reservedWords.Perm f.escapes.reservedWords.names)
    (hpath : pathKeywords.Perm f.escapes.pathKeywords.names) :
    readFlattening (some (.ofMembers (f.written reservedWords pathKeywords))) = .ok f := by
  have hentry (name : String) :
      Value.entry? (Value.ofMembers (f.written reservedWords pathKeywords)).entries name =
        (f.written reservedWords pathKeywords).get? name :=
    Value.entry?_ofMembers _ _
  refine readFlattening_eq_ok_iff.2 ⟨_, rfl, ?_, ?_, ?_, ?_, ?_, ?_⟩
  · exact wordsOr_ofTexts h.reservedWords hreserved (hentry _)
  · exact templateOr_ofText h.reservedWordEscape (hentry _)
  · exact wordsOr_ofTexts h.pathKeywords hpath (hentry _)
  · exact templateOr_ofText h.pathKeywordEscape (hentry _)
  · exact flagOr_bool (hentry _)
  · exact choiceOr_duplicatePolicy (hentry _)

/-- Canonical settings that are written are read again as they are. -/
theorem ofValue_written (hg : g.Canonical) (hf : f.Canonical)
    {reservedWords pathKeywords : List String}
    (hreserved : reservedWords.Perm f.escapes.reservedWords.names)
    (hpath : pathKeywords.Perm f.escapes.pathKeywords.names) :
    ofValue (written g f reservedWords pathKeywords) = .ok (g, f) :=
  ofValue_map_eq_ok_iff.2
    ⟨rfl, readGenerator_written hg, readFlattening_written hf hreserved hpath⟩

/-- The settings that some value stands for are the canonical ones. -/
theorem exists_ofValue_iff_canonical :
    (∃ v, ofValue v = .ok (g, f)) ↔ g.Canonical ∧ f.Canonical :=
  ⟨fun ⟨_, h⟩ => canonical_of_ofValue h,
    fun ⟨hg, hf⟩ => ⟨_, ofValue_written hg hf (.refl _) (.refl _)⟩⟩

/-- Settings that are read are canonical, and they are read again from what is written of
    them, with the words of the sets in any order. -/
theorem read_canonical (h : ofValue v = .ok (g, f)) :
    g.Canonical ∧ f.Canonical ∧
      ∀ reservedWords pathKeywords : List String,
        reservedWords.Perm f.escapes.reservedWords.names →
        pathKeywords.Perm f.escapes.pathKeywords.names →
          ofValue (written g f reservedWords pathKeywords) = .ok (g, f) := by
  obtain ⟨hg, hf⟩ := canonical_of_ofValue h
  exact ⟨hg, hf, fun _ _ hreserved hpath => ofValue_written hg hf hreserved hpath⟩

/-- Settings with blanks, capitals and a text in place of a list. -/
def untidy : Value :=
  .ofMembers
    [("flattening", .ofMembers
      [("reserved_words", .ofTexts ["type ", " ", " fn", "type"]),
        ("path_keyword_escape", .ofText " \x7bname\x7d_\n"),
        ("on_duplicate", .ofText "OverWrite")]),
    ("generator", .ofMembers
      [("module_name", .ofText " app "),
        ("derive_macros", .ofText " Clone"),
        ("external_definitions", .ofMembers [(" chrono ", .ofTexts ["Utc", "", "Local "])])])]

/-- What they stand for. -/
def tidy : GeneratorSettings × FlatteningSettings :=
  ({ moduleName := "app", deriveMacros := ["Clone"],
     externalDefinitions := [("chrono", ["Utc", "Local"])] },
   { escapes :=
      { reservedWords := .ofNames ["fn", "type"], pathKeywords := .ofNames rustPathKeywords }
     onDuplicate := .overwrite })

theorem read_canonical_untidy :
    ofValue untidy = .ok tidy ∧
      ofValue (written tidy.1 tidy.2 ["type", "fn"] ["super", "self", "crate", "Self"]) =
        .ok tidy := by
  have h : ofValue untidy = .ok (tidy.1, tidy.2) := by decide +kernel
  exact ⟨h, (read_canonical h).2.2 _ _ (by decide) (by decide)⟩

end Settings

end ProviderTypes
