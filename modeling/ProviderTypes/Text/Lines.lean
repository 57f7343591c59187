/-!
# ProviderTypes.Text.Lines

Line boundaries: splitting a text into lines, and reading every line ending of a file
as one line feed.

Main statement: no line holds a boundary (`isLineBreak_eq_false_of_mem_lines`).
-/

namespace ProviderTypes

/-- A character that ends a line: line feed, carriage return, vertical tab, form feed, the
    information separators, next line, and the two Unicode separators. -/
def isLineBreak (c : Char) : Bool :=
  let n := c.toNat
  (10 ≤ n && n ≤ 13) || (28 ≤ n && n ≤ 30) || n == 0x85 || n == 0x2028 || n == 0x2029

/-- The lines of a text without their boundaries. A carriage return with a line feed is one
    boundary, and a boundary at the end opens no further line. -/
def lines : List Char → List (List Char)
  | [] => []
  | '\r' :: '\n' :: rest => [] :: lines rest
  | c :: rest =>
    if isLineBreak c then [] :: lines rest
    else
      match lines rest with
      | [] => [[c]]
      | first :: others => (c :: first) :: others

/-- No line holds a boundary. -/
theorem isLineBreak_eq_false_of_mem_lines {cs line : List Char} (hl : line ∈ lines cs)
    {c : Char} (hc : c ∈ line) : isLineBreak c = false := by
  fun_induction lines cs generalizing line with
  | case1 => simp at hl
  | case2 rest ih =>
    rcases List.mem_cons.1 hl with rfl | h
    · simp at hc
    · exact ih h hc
  | case3 d rest _ hd ih =>
    rcases List.mem_cons.1 hl with rfl | h
    · simp at hc
    · exact ih h hc
  | case4 d rest _ hd hrest ih =>
    simp only [List.mem_singleton] at hl
    subst hl
    simp only [List.mem_singleton] at hc
    subst hc
    simpa using hd
  | case5 d rest _ hd first others hrest ih =>
    rcases List.mem_cons.1 hl with rfl | h
    · rcases List.mem_cons.1 hc with rfl | h
      · simpa using hd
      · exact ih (hrest ▸ List.mem_cons_self) h
    · exact ih (hrest ▸ List.mem_cons_of_mem _ h) hc

/-- Read a carriage return, alone or before a line feed, as one line feed. -/
def unifyNewlines : List Char → List Char
  | [] => []
  | '\r' :: '\n' :: rest => '\n' :: unifyNewlines rest
  | c :: rest => (if c = '\r' then '\n' else c) :: unifyNewlines rest

end ProviderTypes
