/-!
# ProviderTypes.Proofs.Text.Joined

Texts that are joined with a separator: each of them stands in the result
(`exists_intercalate_of_mem`), and the first at its start (`exists_intercalate_cons`).
-/

namespace ProviderTypes

/-- The first text stands at the start of what it is joined to. -/
theorem exists_intercalate_cons (separator first : String) (rest : List String) :
    ∃ after, separator.intercalate (first :: rest) = first ++ after := by
  cases rest with
  | nil => exact ⟨"", by simp⟩
  | cons second rest => exact ⟨_, by rw [String.intercalate_cons_cons, String.append_assoc]⟩

/-- Every text stands in what it is joined to. -/
theorem exists_intercalate_of_mem (separator : String) {texts : List String} {text : String}
    (h : text ∈ texts) : ∃ before after, separator.intercalate texts = before ++ text ++ after := by
  obtain ⟨front, back, rfl⟩ := List.append_of_mem h
  obtain ⟨after, hafter⟩ := exists_intercalate_cons separator text back
  cases front with
  | nil => exact ⟨"", after, by rw [List.nil_append, hafter, String.empty_append]⟩
  | cons first front =>
      refine ⟨separator.intercalate (first :: front) ++ separator, after, ?_⟩
      rw [String.intercalate_append_of_ne_nil (List.cons_ne_nil _ _) (List.cons_ne_nil _ _),
        hafter]
      simp only [String.append_assoc]

end ProviderTypes
