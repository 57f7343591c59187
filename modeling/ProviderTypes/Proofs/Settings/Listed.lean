import ProviderTypes.Proofs.Members.Writing
import ProviderTypes.Proofs.Settings.Reading

/-!
# ProviderTypes.Proofs.Settings.Listed

Where the names go that a value lists.  A list of names that is written becomes exactly
the names that it lists, up to blanks.  The names of a module are those of the last entry
for it: entries are for one module when their keys are equal up to blanks, and the names
of all but the last of them are lost (`keeps_listed`, `not_forall_external_kept`).  When
no two keys are, every name is there.
-/

namespace ProviderTypes

namespace Yaml.Value

/-- The entries of the mapping at the end of a path, none if there is no mapping. -/
def entriesAt (v : Value) (path : List String) : List (Atom × Value) :=
  ((v.at? path).map entries).getD []

theorem at?_pair (v : Value) (outer name : String) :
    v.at? [outer, name] = entry? (v.entriesAt [outer]) name := by
  rw [entriesAt, at?_singleton, at?]
  cases entry? v.entries outer with
  | none => rfl
  | some w => exact at?_singleton w name

end Yaml.Value

namespace Settings

open Yaml (Atom Value)

variable {entries : Section} {v w : Value} {g : GeneratorSettings} {f : FlatteningSettings}

/-! ## lists of names -/

/-- The value lists the name, perhaps with blanks around it. -/
def Lists (v : Value) (name : String) : Prop :=
  ∃ s ∈ v.listed, stripBlank s = name ∧ name ≠ ""

/-- The macros are those that the settings list. -/
theorem deriveMacros_of_ofValue (h : ofValue v = .ok (g, f))
    (hw : v.at? ["generator", "derive_macros"] = some w) : g.deriveMacros = namesIn w := by
  obtain ⟨sec, -, hsec, -, -, hmacros, -⟩ := readGenerator_eq_ok_iff.1 (sections_of_ofValue h).1
  rw [Value.at?_pair, Value.entriesAt, ← entries_of_readSection hsec] at hw
  rw [eq_of_textsOr hmacros, hw]
  rfl

/-- The words of a set that is written are those that its value lists. -/
theorem contains_of_wordsOr {sec : Section} {name field : String} {default words : NameSet}
    (h : wordsOr sec name field default = .ok words) (hw : Value.entry? sec name = some w)
    (hnull : w ≠ .atom .null) (word : String) :
    OrderedMap.contains words word = true ↔ Lists w word := by
  obtain ⟨hnone, -⟩ | ⟨w', hw', -, rfl⟩ := cases_of_wordsOr h
  · exact absurd (hnone w hw) hnull
  · rw [NameSet.contains_ofNames_iff, mem_namesIn, Option.some.inj (hw.symm.trans hw')]
    rfl

/-- The words are those that the settings list. -/
theorem escapes_of_ofValue (h : ofValue v = .ok (g, f)) (hnull : w ≠ .atom .null) :
    (v.at? ["flattening", "reserved_words"] = some w →
      ∀ word, f.escapes.reservedWords.contains word = true ↔ Lists w word) ∧
    (v.at? ["flattening", "path_keywords"] = some w →
      ∀ word, f.escapes.pathKeywords.contains word = true ↔ Lists w word) := by
  obtain ⟨sec, hsec, hreserved, -, hkeywords, -⟩ :=
    readFlattening_eq_ok_iff.1 (sections_of_ofValue h).2
  rw [Value.at?_pair, Value.at?_pair, Value.entriesAt, ← entries_of_readSection hsec]
  exact ⟨fun hw => contains_of_wordsOr hreserved hw hnull,
    fun hw => contains_of_wordsOr hkeywords hw hnull⟩

/-! ## modules -/

/-- The last of the entries for a module lists the name. -/
def LastLists (entries : Section) (path name : String) : Prop :=
  ∃ before key w after, entries = before ++ (.text key, w) :: after ∧
    stripBlank key = path ∧ Lists w name ∧
      ∀ other u, (Atom.text other, u) ∈ after → stripBlank other ≠ path

/-- The modules are those that the settings list, where a later one replaces an earlier one. -/
theorem externalDefinitions_of_ofValue (h : ofValue v = .ok (g, f)) :
    (∀ e ∈ v.entriesAt ["generator", "external_definitions"], ∃ key, e.1 = .text key) ∧
      g.externalDefinitions =
        .collect ((v.entriesAt ["generator", "external_definitions"]).map moduleOf) := by
  obtain ⟨sec, entries, hsec, -, -, -, -, -, -, hentries, hmodules⟩ :=
    readGenerator_eq_ok_iff.1 (sections_of_ofValue h).1
  have hlisted : v.entriesAt ["generator", "external_definitions"] = entries := by
    rw [Value.entriesAt, Value.at?_pair, Value.entriesAt, ← entries_of_readSection hsec,
      ← entries_of_readSection hentries]
  rw [hlisted]
  exact modules_of_readModules hmodules

/-- The modules that are collected have the names that their last entries list. -/
theorem exists_mem_collect_iff (htext : ∀ e ∈ entries, ∃ key, e.1 = .text key)
    {path name : String} :
    (∃ names, (path, names) ∈ Members.collect (entries.map moduleOf) ∧ name ∈ names) ↔
      LastLists entries path name := by
  constructor
  · rintro ⟨names, hmem, hname⟩
    obtain ⟨before, after, heq, hafter⟩ := Members.mem_collect_iff.1 hmem
    -- where the modules are split around the last one of its path, so are their entries
    obtain ⟨front, back, rfl, rfl, hback⟩ := List.map_eq_append_iff.1 heq
    obtain ⟨e, rest, rfl, he, rfl⟩ := List.map_eq_cons_iff.1 hback
    obtain ⟨key, hkey⟩ := htext e (by simp)
    obtain ⟨a, w⟩ := e
    cases hkey
    cases he
    refine ⟨front, key, w, rest, rfl, rfl, mem_namesIn.1 hname, fun other u hmem => ?_⟩
    exact hafter _ (List.mem_map_of_mem hmem)
  · rintro ⟨before, key, w, after, rfl, rfl, hlists, hafter⟩
    refine ⟨namesIn w, Members.mem_collect_iff.2
      ⟨before.map moduleOf, after.map moduleOf, by rw [List.map_append]; rfl, fun a ha => ?_⟩,
      mem_namesIn.2 hlists⟩
    obtain ⟨⟨b, u⟩, he, rfl⟩ := List.mem_map.1 ha
    obtain ⟨other, hother⟩ := htext (b, u) (by simp [he])
    cases hother
    exact hafter other u he

/-- Where keys are distinct without the blanks around them, every module is the last of its name. -/
theorem lastLists_of_distinct (hkeys : (entries.map fun e => e.1.text?.map stripBlank).Nodup)
    {key name : String} (hmem : (.text key, w) ∈ entries) (hlists : Lists w name) :
    LastLists entries (stripBlank key) name := by
  obtain ⟨before, after, rfl⟩ := List.append_of_mem hmem
  refine ⟨before, key, w, after, rfl, rfl, hlists, fun other u hother heq => ?_⟩
  rw [List.map_append, List.nodup_append] at hkeys
  refine (List.nodup_cons.1 hkeys.2.1).1 (List.mem_map.2 ⟨(.text other, u), hother, ?_⟩)
  exact congrArg some heq

/-- What the settings keep of the names that the value lists for them: all of a list of names,
    and of the modules those of the last entry for each, hence all when no two entries are for
    one module. -/
structure KeepsListed (v : Value) (g : GeneratorSettings) (f : FlatteningSettings) : Prop where
  deriveMacros : ∀ w, v.at? ["generator", "derive_macros"] = some w →
    ∀ name, name ∈ g.deriveMacros ↔ Lists w name
  reservedWords : ∀ w, v.at? ["flattening", "reserved_words"] = some w → w ≠ .atom .null →
    ∀ word, f.escapes.reservedWords.contains word = true ↔ Lists w word
  pathKeywords : ∀ w, v.at? ["flattening", "path_keywords"] = some w → w ≠ .atom .null →
    ∀ word, f.escapes.pathKeywords.contains word = true ↔ Lists w word
  modules : ∀ path name,
    (∃ names, (path, names) ∈ g.externalDefinitions ∧ name ∈ names) ↔
      LastLists (v.entriesAt ["generator", "external_definitions"]) path name
  externalNames : ∀ name, name ∈ g.externalNames ↔
    ∃ path, LastLists (v.entriesAt ["generator", "external_definitions"]) path name
  distinctModules :
    ((v.entriesAt ["generator", "external_definitions"]).map
      fun e => e.1.text?.map stripBlank).Nodup →
    ∀ key w, (.text key, w) ∈ v.entriesAt ["generator", "external_definitions"] →
      ∀ name, Lists w name → name ∈ g.externalNames

/-- Settings that are read keep what is listed for them, but for the modules that are written
    again. -/
theorem keeps_listed (h : ofValue v = .ok (g, f)) : KeepsListed v g f := by
  obtain ⟨htext, hmodules⟩ := externalDefinitions_of_ofValue h
  have hlast (path name : String) :
      (∃ names, (path, names) ∈ g.externalDefinitions ∧ name ∈ names) ↔
        LastLists (v.entriesAt ["generator", "external_definitions"]) path name := by
    rw [hmodules]
    exact exists_mem_collect_iff htext
  have hexternal (name : String) : name ∈ g.externalNames ↔
      ∃ path, LastLists (v.entriesAt ["generator", "external_definitions"]) path name := by
    simp only [← hlast, GeneratorSettings.externalNames, List.mem_flatMap, Prod.exists]
  constructor
  case deriveMacros =>
    intro w hw name
    rw [deriveMacros_of_ofValue h hw]
    exact mem_namesIn
  case reservedWords => exact fun w hw hnull => (escapes_of_ofValue h hnull).1 hw
  case pathKeywords => exact fun w hw hnull => (escapes_of_ofValue h hnull).2 hw
  case modules => exact hlast
  case externalNames => exact hexternal
  case distinctModules =>
    intro hkeys key w hmem name hlists
    exact (hexternal name).2 ⟨_, lastLists_of_distinct hkeys hmem hlists⟩

/-- Two keys that differ by a blank, each with a name. -/
def clocks : Value :=
  .map [(.text "generator", .map [(.text "external_definitions", .map
    [(.text "chrono", .list [.atom (.text "DateTime")]),
      (.text " chrono", .list [.atom (.text "Utc")])])])]

theorem ofValue_clocks :
    ofValue clocks = .ok ({ externalDefinitions := [("chrono", ["Utc"])] }, {}) := by
  decide +kernel

theorem keeps_listed_clocks :
    ofValue clocks = .ok ({ externalDefinitions := [("chrono", ["Utc"])] }, {}) ∧
      KeepsListed clocks { externalDefinitions := [("chrono", ["Utc"])] } {} :=
  ⟨ofValue_clocks, keeps_listed ofValue_clocks⟩

/-- A name that is listed for a module may be no external name: that of the first of two
    entries for the module is lost. -/
theorem not_forall_external_kept :
    ¬ ∀ (v : Value) (g : GeneratorSettings) (f : FlatteningSettings), ofValue v = .ok (g, f) →
      ∀ key w, (.text key, w) ∈ v.entriesAt ["generator", "external_definitions"] →
        ∀ name, Lists w name → name ∈ g.externalNames := by
  intro h
  have hentry : (.text "chrono", .list [.atom (.text "DateTime")]) ∈
      clocks.entriesAt ["generator", "external_definitions"] := List.mem_cons_self
  have hlists : Lists (.list [.atom (.text "DateTime")]) "DateTime" :=
    ⟨"DateTime", List.mem_cons_self, by decide, by decide⟩
  have hkept := h _ _ _ ofValue_clocks "chrono" _ hentry "DateTime" hlists
  exact absurd hkept (by decide)

end Settings

end ProviderTypes
