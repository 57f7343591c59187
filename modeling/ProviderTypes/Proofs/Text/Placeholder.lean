import ProviderTypes.FieldName
import Mathlib.Logic.ExistsUnique

/-!
# ProviderTypes.Proofs.Text.Placeholder

Counting the placeholders of a template.  No two places of the placeholder overlap, so
that the count from the left is right: there is no placeholder when the count is zero
(`countChars_eq_zero_iff`), and exactly one when it is one (`countChars_eq_one_iff`).
Filling a template of the second kind puts every name between the same two texts
(`exists_fill_eq`).
-/

namespace ProviderTypes.Template

/-- The part stands in the text in exactly one place, which is given by what is around it. -/
def OccursOnce (part text : List Char) : Prop :=
  ∃! around : List Char × List Char, around.1 ++ part ++ around.2 = text

theorem toList_placeholder : placeholder.toList = ['\x7b', 'n', 'a', 'm', 'e', '\x7d'] := rfl

variable {before after rest : List Char} {c : Char}

/-- Behind a placeholder the next one starts after its end. -/
theorem around_eq_placeholder_append_iff :
    before ++ placeholder.toList ++ after = placeholder.toList ++ rest ↔
      before = [] ∧ after = rest ∨
        ∃ more, before = placeholder.toList ++ more ∧
          more ++ placeholder.toList ++ after = rest := by
  rw [toList_placeholder]
  constructor
  · intro h
    rcases before with _ | ⟨a, _ | ⟨b, _ | ⟨c, _ | ⟨d, _ | ⟨e, _ | ⟨f, more⟩⟩⟩⟩⟩⟩
    all_goals simp at h ⊢
    all_goals grind
  · rintro (⟨rfl, rfl⟩ | ⟨more, rfl, rfl⟩) <;> simp

/-- Where no placeholder starts, the next one starts later. -/
theorem around_eq_cons_iff
    (hstart : ∀ more, c = '\x7b' → rest = 'n' :: 'a' :: 'm' :: 'e' :: '\x7d' :: more → False) :
    before ++ placeholder.toList ++ after = c :: rest ↔
      ∃ more, before = c :: more ∧ more ++ placeholder.toList ++ after = rest := by
  constructor
  · intro h
    cases before with
    | nil =>
      obtain ⟨hc, hrest⟩ := List.cons.inj h
      exact (hstart after hc.symm hrest.symm).elim
    | cons d more =>
      obtain ⟨rfl, hmore⟩ := List.cons.inj h
      exact ⟨more, rfl, hmore⟩
  · rintro ⟨more, rfl, rfl⟩
    rfl

/-- No placeholder is counted exactly when there is none. -/
theorem countChars_eq_zero_iff {cs : List Char} :
    countChars cs = 0 ↔ ∀ before after, before ++ placeholder.toList ++ after ≠ cs := by
  fun_induction countChars cs with
  | case1 rest _ =>
    exact ⟨fun h => absurd h (Nat.succ_ne_zero _), fun h => absurd rfl (h [] rest)⟩
  | case2 c rest hstart ih =>
    simp only [ih, ne_eq, around_eq_cons_iff hstart]
    constructor
    · rintro h _ after ⟨more, rfl, hmore⟩
      exact h more after hmore
    · intro h before after hrest
      exact h _ after ⟨before, rfl, hrest⟩
  | case3 => simp [toList_placeholder]

/-- One placeholder is counted exactly when there is one. -/
theorem countChars_eq_one_iff {cs : List Char} :
    countChars cs = 1 ↔ OccursOnce placeholder.toList cs := by
  unfold OccursOnce
  fun_induction countChars cs with
  | case1 rest _ =>
    have hplaces (around : List Char × List Char) :
        around.1 ++ placeholder.toList ++ around.2 = placeholder.toList ++ rest ↔ _ :=
      around_eq_placeholder_append_iff
    -- the place at the start is the only one when there is none in the rest
    rw [Nat.add_eq_right, countChars_eq_zero_iff]
    constructor
    · intro h
      refine ⟨([], rest), rfl, fun around haround => ?_⟩
      obtain ⟨hbefore, hafter⟩ | ⟨more, -, hmore⟩ := (hplaces around).1 haround
      · exact Prod.ext hbefore hafter
      · exact absurd hmore (h more _)
    · intro hunique before after hrest
      have hother : (placeholder.toList ++ before, after) = (([] : List Char), rest) :=
        hunique.unique ((hplaces _).2 (.inr ⟨before, rfl, hrest⟩)) ((hplaces _).2 (.inl ⟨rfl, rfl⟩))
      cases congrArg Prod.fst hother
  | case2 c rest hstart ih =>
    have hplaces (around : List Char × List Char) :
        around.1 ++ placeholder.toList ++ around.2 = c :: rest ↔ _ :=
      around_eq_cons_iff hstart
    -- the places are those in the rest, each one character later
    rw [ih]
    constructor
    · rintro ⟨around, haround, hunique⟩
      refine ⟨(c :: around.1, around.2), (hplaces _).2 ⟨_, rfl, haround⟩, fun other hother => ?_⟩
      obtain ⟨more, hmore, hrest⟩ := (hplaces other).1 hother
      cases hunique (more, other.2) hrest
      exact Prod.ext hmore rfl
    · rintro ⟨around, haround, hunique⟩
      obtain ⟨more, hmore, hrest⟩ := (hplaces around).1 haround
      refine ⟨(more, around.2), hrest, fun other hother => ?_⟩
      have hsame := hunique (c :: other.1, other.2) ((hplaces _).2 ⟨_, rfl, hother⟩)
      cases hsame
      cases hmore
      rfl
  | case3 => simp [toList_placeholder, ExistsUnique]

/-! ## filling -/

/-- A text without placeholders is filled with nothing. -/
theorem fillChars_eq_self {cs : List Char} (name : List Char) (h : countChars cs = 0) :
    fillChars name cs = cs := by
  fun_induction fillChars name cs with
  | case1 rest _ => exact absurd h (Nat.succ_ne_zero _)
  | case2 c rest hstart ih =>
    rw [countChars] at h
    · rw [ih h]
    · exact hstart
  | case3 => rfl

/-- The name takes the one place of the placeholder, whatever the name holds. -/
theorem exists_fillChars_eq {cs : List Char} (h : countChars cs = 1) :
    ∃ before after, cs = before ++ placeholder.toList ++ after ∧
      ∀ name, fillChars name cs = before ++ name ++ after := by
  fun_induction countChars cs with
  | case1 rest _ =>
    refine ⟨[], rest, rfl, fun name => ?_⟩
    rw [fillChars, fillChars_eq_self name (Nat.succ.inj h)]
    rfl
  | case2 c rest hstart ih =>
    obtain ⟨before, after, hrest, hfill⟩ := ih h
    refine ⟨c :: before, after, congrArg (c :: ·) hrest, fun name => ?_⟩
    rw [fillChars, hfill]
    · rfl
    · exact hstart
  | case3 => cases h

/-- A template with one placeholder puts every name between the same two texts. -/
theorem exists_fill_eq {template : String} (h : count template = 1) :
    ∃ before after : String, template = before ++ placeholder ++ after ∧
      ∀ name, fill template name = before ++ name ++ after := by
  obtain ⟨before, after, htemplate, hfill⟩ := exists_fillChars_eq h
  refine ⟨.ofList before, .ofList after, String.toList_inj.1 ?_, fun name => ?_⟩
  · simp [htemplate]
  · rw [fill, hfill]
    simp [String.append_assoc]

end ProviderTypes.Template
