import ProviderTypes.Proofs.Settings.Reading
import ProviderTypes.Proofs.Text.Placeholder

/-!
# ProviderTypes.Proofs.Settings.Escaping

Escapes keep names apart.  A template that is accepted has one place for the name, so an
escape puts every word of its table between the same two texts, and words that differ
stay different (`escape_injective`).  That holds of any tables, and of words that hold
the placeholder themselves.
-/

namespace ProviderTypes

namespace EscapeRules

variable {rules : EscapeRules}

/-- Path keywords are put between the first two texts, reserved words that are none between the
    last two, and all other names are left alone. -/
structure Surrounds (rules : EscapeRules) (a b c d : String) : Prop where
  pathKeyword : ∀ word, rules.pathKeywords.contains word = true →
    rules.escape word = a ++ word ++ b
  reservedWord : ∀ word, ¬ rules.pathKeywords.contains word = true →
    rules.reservedWords.contains word = true → rules.escape word = c ++ word ++ d
  other : ∀ name, ¬ rules.pathKeywords.contains name = true →
    ¬ rules.reservedWords.contains name = true → rules.escape name = name

/-- No two path keywords have one escape, and no two reserved words that are no path keywords. -/
structure KeepsApart (rules : EscapeRules) : Prop where
  pathKeywords : ∀ word other, rules.pathKeywords.contains word = true →
    rules.pathKeywords.contains other = true → rules.escape word = rules.escape other →
      word = other
  reservedWords : ∀ word other,
    ¬ rules.pathKeywords.contains word = true → rules.reservedWords.contains word = true →
    ¬ rules.pathKeywords.contains other = true → rules.reservedWords.contains other = true →
      rules.escape word = rules.escape other → word = other

/-- Templates that put names between texts make rules that do. -/
theorem surrounds_of_fill {a b c d : String}
    (hpath : ∀ name, Template.fill rules.pathKeywordEscape name = a ++ name ++ b)
    (hreserved : ∀ name, Template.fill rules.reservedWordEscape name = c ++ name ++ d) :
    rules.Surrounds a b c d where
  pathKeyword word h := by rw [escape, if_pos h, hpath]
  reservedWord word hnot h := by rw [escape, if_neg hnot, if_pos h, hreserved]
  other name hnot hnot' := by rw [escape, if_neg hnot, if_neg hnot']

/-- Names between the same texts are equal when the whole texts are. -/
theorem eq_of_between {before after name other : String}
    (h : before ++ name ++ after = before ++ other ++ after) : name = other :=
  (String.append_right_inj before).1 ((String.append_left_inj after).1 h)

/-- Rules that put names between texts keep words of one kind apart. -/
theorem Surrounds.keepsApart {a b c d : String} (h : rules.Surrounds a b c d) :
    rules.KeepsApart where
  pathKeywords word other hword hother heq := by
    rw [h.pathKeyword word hword, h.pathKeyword other hother] at heq
    exact eq_of_between heq
  reservedWords word other hword hword' hother hother' heq := by
    rw [h.reservedWord word hword hword', h.reservedWord other hother hother'] at heq
    exact eq_of_between heq

end EscapeRules

namespace Settings

open Yaml (Value)

variable {v : Value} {g : GeneratorSettings} {f : FlatteningSettings} {template : String}

/-- The reader of templates answers with this one. -/
def AcceptsTemplate (template : String) : Prop :=
  ∃ sec name field default, templateOr sec name field default = .ok template

/-- An accepted template has one placeholder. -/
theorem AcceptsTemplate.count_eq_one (h : AcceptsTemplate template) :
    Template.count template = 1 := by
  obtain ⟨sec, name, field, default, h⟩ := h
  exact (templateOr_eq_ok_iff.1 h).2

/-- The templates of accepted settings were accepted. -/
theorem acceptsTemplate_of_ofValue (h : ofValue v = .ok (g, f)) :
    AcceptsTemplate f.escapes.reservedWordEscape ∧
      AcceptsTemplate f.escapes.pathKeywordEscape := by
  obtain ⟨sec, -, -, hreserved, -, hpath, -⟩ := readFlattening_eq_ok_iff.1 (sections_of_ofValue h).2
  exact ⟨⟨_, _, _, _, hreserved⟩, ⟨_, _, _, _, hpath⟩⟩

/-- The texts around the place for the name in two templates that are accepted are those around
    the words that rules with these templates escape, whatever their tables are. -/
theorem escape_injective {pathEscape reservedEscape : String}
    (hpath : AcceptsTemplate pathEscape) (hreserved : AcceptsTemplate reservedEscape) :
    ∃ a b c d : String, pathEscape = a ++ placeholder ++ b ∧
      reservedEscape = c ++ placeholder ++ d ∧
      ∀ rules : EscapeRules, rules.pathKeywordEscape = pathEscape →
        rules.reservedWordEscape = reservedEscape →
          rules.Surrounds a b c d ∧ rules.KeepsApart := by
  obtain ⟨a, b, hpathEscape, hpathFill⟩ := Template.exists_fill_eq hpath.count_eq_one
  obtain ⟨c, d, hreservedEscape, hreservedFill⟩ := Template.exists_fill_eq hreserved.count_eq_one
  refine ⟨a, b, c, d, hpathEscape, hreservedEscape, ?_⟩
  rintro rules rfl rfl
  have hsurrounds : rules.Surrounds a b c d :=
    EscapeRules.surrounds_of_fill hpathFill hreservedFill
  exact ⟨hsurrounds, hsurrounds.keepsApart⟩

/-- Settings in which the placeholder itself is a path keyword. -/
def bracketed : FlatteningSettings :=
  { escapes :=
      { reservedWords := .ofNames ["type"]
        pathKeywords := .ofNames ["self", "\x7bname\x7d"]
        pathKeywordEscape := "<\x7bname\x7d>" } }

theorem ofValue_bracketed :
    ofValue (.map [(.text "flattening", .map
      [(.text "reserved_words", .atom (.text "type")),
        (.text "path_keywords", .list [.atom (.text "self"), .atom (.text "\x7bname\x7d")]),
        (.text "path_keyword_escape", .atom (.text " <\x7bname\x7d>"))])]) =
      .ok ({}, bracketed) := by rfl

/-- Templates with text before and behind the name, and a name like a placeholder. -/
theorem escape_injective_bracketed :
    AcceptsTemplate bracketed.escapes.pathKeywordEscape ∧
      AcceptsTemplate bracketed.escapes.reservedWordEscape ∧
      ∃ a b c d : String, bracketed.escapes.pathKeywordEscape = a ++ placeholder ++ b ∧
        bracketed.escapes.escape "\x7bname\x7d" = a ++ "\x7bname\x7d" ++ b ∧
        bracketed.escapes.escape "type" = c ++ "type" ++ d := by
  obtain ⟨hreserved, hpath⟩ := acceptsTemplate_of_ofValue ofValue_bracketed
  obtain ⟨a, b, c, d, htemplate, -, hrules⟩ := escape_injective hpath hreserved
  obtain ⟨hsurrounds, -⟩ := hrules bracketed.escapes rfl rfl
  exact ⟨hpath, hreserved, a, b, c, d, htemplate, hsurrounds.pathKeyword _ (by decide),
    hsurrounds.reservedWord _ (by decide) (by decide)⟩

end Settings

end ProviderTypes
