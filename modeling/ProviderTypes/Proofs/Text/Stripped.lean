import ProviderTypes.Text.Blank

/-!
# ProviderTypes.Proofs.Text.Stripped

Texts without blanks around them.  Trimming changes exactly the texts that start or end
with a blank (`trimBlank_eq_self_iff`), so what is trimmed once is trimmed for good
(`stripBlank_stripBlank`).
-/

namespace ProviderTypes

/-- A text that starts and ends with a character, and with no blank. -/
structure IsStripped (s : String) : Prop where
  starts : ∃ c ∈ s.toList.head?, isBlank c = false
  ends : ∃ c ∈ s.toList.getLast?, isBlank c = false

instance (s : String) : Decidable (IsStripped s) :=
  decidable_of_iff
    ((s.toList.head?.any fun c => !isBlank c) = true ∧
      (s.toList.getLast?.any fun c => !isBlank c) = true)
    ⟨fun h => ⟨by simpa [Option.any_eq_true] using h.1, by simpa [Option.any_eq_true] using h.2⟩,
      fun h => ⟨by simpa [Option.any_eq_true] using h.starts,
        by simpa [Option.any_eq_true] using h.ends⟩⟩

variable {cs : List Char} {s : String}

/-- A text that starts with no blank loses nothing at the start. -/
theorem dropWhile_isBlank_eq_self (h : ∀ c ∈ cs.head?, isBlank c = false) :
    cs.dropWhile isBlank = cs := by
  cases cs with
  | nil => rfl
  | cons c rest => rw [List.dropWhile_cons_of_neg (by simp [h c rfl])]

/-- A text that ends in no blank loses nothing at the end. -/
theorem trimBlankEnd_eq_self (h : ∀ c ∈ cs.getLast?, isBlank c = false) :
    trimBlankEnd cs = cs := by
  rw [trimBlankEnd, dropWhile_isBlank_eq_self, List.reverse_reverse]
  simpa [List.head?_reverse] using h

/-- Trimming leaves exactly the texts alone that neither start nor end with a blank. -/
theorem trimBlank_eq_self_iff :
    trimBlank cs = cs ↔
      (∀ c ∈ cs.head?, isBlank c = false) ∧ ∀ c ∈ cs.getLast?, isBlank c = false := by
  constructor
  · intro h
    rw [← h]
    exact ⟨fun c hc => head?_trimBlank hc, fun c hc => getLast?_trimBlankEnd hc⟩
  · rintro ⟨hhead, hlast⟩
    rw [trimBlank, dropWhile_isBlank_eq_self hhead, trimBlankEnd_eq_self hlast]

/-- What is trimmed once is trimmed for good. -/
theorem trimBlank_trimBlank (cs : List Char) : trimBlank (trimBlank cs) = trimBlank cs :=
  trimBlank_eq_self_iff.2
    ⟨fun _ hc => head?_trimBlank hc, fun _ hc => getLast?_trimBlankEnd hc⟩

theorem stripBlank_eq_self_iff : stripBlank s = s ↔ trimBlank s.toList = s.toList := by
  rw [← toList_stripBlank, String.toList_inj]

/-- What is trimmed once is trimmed for good. -/
theorem stripBlank_stripBlank (s : String) : stripBlank (stripBlank s) = stripBlank s := by
  rw [stripBlank_eq_self_iff, toList_stripBlank, trimBlank_trimBlank]

/-- A text is stripped when trimming leaves it alone and it is not empty. -/
theorem isStripped_iff : IsStripped s ↔ stripBlank s = s ∧ s ≠ "" := by
  rw [stripBlank_eq_self_iff, trimBlank_eq_self_iff]
  constructor
  · rintro ⟨⟨c, hc, hcblank⟩, ⟨d, hd, hdblank⟩⟩
    refine ⟨⟨fun e he => ?_, fun e he => ?_⟩, ?_⟩
    · rwa [Option.mem_unique he hc]
    · rwa [Option.mem_unique he hd]
    · rintro rfl
      simp at hc
  · rintro ⟨⟨hhead, hlast⟩, hne⟩
    have hcs : s.toList ≠ [] := by simpa using hne
    have hfirst := List.head?_eq_some_head hcs
    have hend := List.getLast?_eq_some_getLast hcs
    exact ⟨⟨_, hfirst, hhead _ hfirst⟩, ⟨_, hend, hlast _ hend⟩⟩

/-- A text without blanks around it stays as it is. -/
theorem IsStripped.stripBlank_eq (h : IsStripped s) : stripBlank s = s := (isStripped_iff.1 h).1

theorem IsStripped.ne_empty (h : IsStripped s) : s ≠ "" := (isStripped_iff.1 h).2

/-- What trimming leaves of a text is stripped, unless nothing is left. -/
theorem isStripped_stripBlank (h : stripBlank s ≠ "") : IsStripped (stripBlank s) :=
  isStripped_iff.2 ⟨stripBlank_stripBlank s, h⟩

end ProviderTypes
