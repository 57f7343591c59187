/-!
# ProviderTypes.Text.Symbol

The symbols of a text: characters, and halves of surrogate pairs that stand alone. An escape in
a JSON or a YAML text can write such a half, and no character stands for it, so a text writes it
as a mark with a character behind, and the mark itself in the same way. Behind a mark the
characters are in the order of what they stand for.

The bytes of a file hold no half. Their text is taken as it was decoded, and what is read from
it is written with marks.

Main statement: symbols are read back as they were written (`symbols_written`), so that texts of
different symbols stay different.
-/

namespace ProviderTypes

/-- What a text is made of. -/
inductive Symbol where
  | char (c : Char)
  /-- One half of a surrogate pair, by its place among the halves. -/
  | half (n : Fin 2048)
  deriving DecidableEq, Repr

namespace Symbol

/-- The character in front of what a text does not write as it is. -/
def mark : Char := '\uE000'

/-- What stands for the mark itself behind a mark. -/
def markItself : Char := '\uE801'

/-- What stands for a half behind a mark. -/
def halfChar (n : Fin 2048) : Char := Char.ofNat (0xE001 + n)

/-- A symbol as a text writes it. -/
def written : Symbol → List Char
  | .char c => if c = mark then [mark, markItself] else [c]
  | .half n => [mark, halfChar n]

/-- What a character stands for behind a mark. -/
def behindMark? (c : Char) : Option Symbol :=
  if c = markItself then some (.char mark)
  else if h : 0xE001 ≤ c.toNat ∧ c.toNat - 0xE001 < 2048 then
    some (.half ⟨c.toNat - 0xE001, h.2⟩)
  else none

/-- The symbols that characters write. A mark with nothing of its own behind it stands for
    itself. -/
def symbols : List Char → List Symbol
  | [] => []
  | [c] => [.char c]
  | c :: d :: rest =>
    match if c = mark then behindMark? d else none with
    | some s => s :: symbols rest
    | none => .char c :: symbols (d :: rest)

/-- The text of characters that stand for themselves, as those of a file do. -/
def textOf (cs : List Char) : String := String.ofList (cs.flatMap fun c => written (.char c))

/-- The character of a symbol that is one. -/
def char? : Symbol → Option Char
  | .char c => some c
  | .half _ => none

def hasHalf (text : String) : Bool := (symbols text.toList).any fun s => s.char?.isNone

/-- The characters of a text, with the replacement character for a half. -/
def shown (text : String) : String :=
  String.ofList ((symbols text.toList).map fun s => s.char?.getD '\uFFFD')

/-- The number of the code point. -/
def number : Symbol → Nat
  | .char c => c.toNat
  | .half n => 0xD800 + n

/-- The symbol of a code point. -/
def ofNumber (n : Nat) : Symbol :=
  if h : 0xD800 ≤ n ∧ n ≤ 0xDFFF then .half ⟨n - 0xD800, by omega⟩ else .char (Char.ofNat n)

/-- Behind a mark the character of a half is read as this half. -/
theorem behindMark?_halfChar (n : Fin 2048) : behindMark? (halfChar n) = some (.half n) := by
  have hvalid : (0xE001 + n.val).isValidChar := Or.inr ⟨by omega, by omega⟩
  have hnumber : (halfChar n).toNat = 0xE001 + n := by
    rw [halfChar, Char.ofNat, dif_pos hvalid]
    rfl
  have hne : halfChar n ≠ markItself := by
    intro h
    have hlast : (halfChar n).toNat = 0xE801 := by rw [h]; rfl
    omega
  have hrange : 0xE001 ≤ (halfChar n).toNat ∧ (halfChar n).toNat - 0xE001 < 2048 := by omega
  rw [behindMark?, if_neg hne, dif_pos hrange]
  simp [hnumber]

/-- A character other than the mark stands for itself. -/
theorem symbols_cons {c : Char} (h : c ≠ mark) (cs : List Char) :
    symbols (c :: cs) = .char c :: symbols cs := by
  cases cs with
  | nil => rfl
  | cons d rest => rw [symbols, if_neg h]

/-- A written symbol is read first, whatever follows it. -/
theorem symbols_written_append (s : Symbol) (cs : List Char) :
    symbols (s.written ++ cs) = s :: symbols cs := by
  cases s with
  | half n =>
      rw [written, List.cons_append, List.singleton_append, symbols, if_pos rfl,
        behindMark?_halfChar]
  | char c =>
      rw [written]
      split
      · subst c
        rw [List.cons_append, List.singleton_append, symbols, if_pos rfl]
        rfl
      · exact symbols_cons ‹_› cs

/-- Symbols are read back as they were written. -/
theorem symbols_written (ss : List Symbol) : symbols (ss.flatMap written) = ss := by
  induction ss with
  | nil => rfl
  | cons s ss ih => rw [List.flatMap_cons, symbols_written_append, ih]

end Symbol

end ProviderTypes
