/-!
# ProviderTypes.Text.Blank

Blank characters and trimming. A name, a macro or a template in a settings file
counts without the blanks around it, and a description without the blanks at the
end of its lines.

Main statements: a trimmed text starts and ends with no blank (`head?_trimBlank`,
`getLast?_trimBlankEnd`), and only blanks are lost (`trimBlankEnd_append`).
-/

namespace ProviderTypes

/-- A character that separates words: the control separators, the spaces of every width
    and the two Unicode line separators. -/
def isBlank (c : Char) : Bool :=
  let n := c.toNat
  (9 ≤ n && n ≤ 13) || (28 ≤ n && n ≤ 32) || n == 0x85 || n == 0xA0 || n == 0x1680 ||
    (0x2000 ≤ n && n ≤ 0x200A) || n == 0x2028 || n == 0x2029 || n == 0x202F || n == 0x205F ||
    n == 0x3000

/-! ## Trimming lists of characters -/

/-- Drop the blanks at the end. -/
def trimBlankEnd (cs : List Char) : List Char :=
  (cs.reverse.dropWhile isBlank).reverse

/-- Drop the blanks at both ends. -/
def trimBlank (cs : List Char) : List Char :=
  trimBlankEnd (cs.dropWhile isBlank)

/-- What trimming at the end removes is a run of blanks. -/
theorem trimBlankEnd_append (cs : List Char) :
    trimBlankEnd cs ++ (cs.reverse.takeWhile isBlank).reverse = cs := by
  rw [trimBlankEnd, ← List.reverse_append, List.takeWhile_append_dropWhile, List.reverse_reverse]

/-- A text trimmed at the end does not end in a blank. -/
theorem getLast?_trimBlankEnd {cs : List Char} {c : Char}
    (h : (trimBlankEnd cs).getLast? = some c) : isBlank c = false := by
  rw [trimBlankEnd, List.getLast?_reverse] at h
  have := List.head?_dropWhile_not isBlank cs.reverse
  simp [h] at this
  exact this

/-- Trimming at the end keeps a prefix. -/
theorem trimBlankEnd_prefix (cs : List Char) : trimBlankEnd cs <+: cs :=
  ⟨_, trimBlankEnd_append cs⟩

/-- A trimmed text does not start with a blank. -/
theorem head?_trimBlank {cs : List Char} {c : Char}
    (h : (trimBlank cs).head? = some c) : isBlank c = false := by
  have hpre : trimBlank cs <+: cs.dropWhile isBlank := trimBlankEnd_prefix _
  obtain ⟨t, ht⟩ := hpre
  have hd := List.head?_dropWhile_not isBlank cs
  rw [← ht, List.head?_append, h] at hd
  simpa using hd

/-! ## Trimming texts -/

/-- The text without the blanks at both ends. -/
def stripBlank (s : String) : String := String.ofList (trimBlank s.toList)

@[simp] theorem toList_stripBlank (s : String) : (stripBlank s).toList = trimBlank s.toList := by
  simp [stripBlank]

end ProviderTypes
