import ProviderTypes.Json.Basic
import ProviderTypes.Text.Digit
import ProviderTypes.Text.Symbol
/-!
# ProviderTypes.Json.Reader

Reading JSON texts. A text that is none is refused with the first fault and its place, given as
line, column and offset. Besides the values of the standard, the reader takes the three
constants that stand for numbers outside the decimals.

A string is written symbol by symbol, since an escape may write half of a surrogate pair alone.

Each step of the reader returns what is left to read with a proof that it is shorter, so that
the recursion ends by the length of the text.
-/

namespace ProviderTypes.Json

/-- What is wrong with a text. -/
inductive Cause where
  | byteOrderMark
  | value
  | propertyName
  | colon
  | comma
  | extraData
  | unterminatedString
  | controlCharacter
  | escape
  | unicodeEscape
  deriving DecidableEq, Repr

def Cause.message : Cause → String
  | .byteOrderMark => "Unexpected UTF-8 BOM (decode using utf-8-sig)"
  | .value => "Expecting value"
  | .propertyName => "Expecting property name enclosed in double quotes"
  | .colon => "Expecting ':' delimiter"
  | .comma => "Expecting ',' delimiter"
  | .extraData => "Extra data"
  | .unterminatedString => "Unterminated string starting at"
  | .controlCharacter => "Invalid control character at"
  | .escape => "Invalid \\escape"
  | .unicodeEscape => "Invalid \\uXXXX escape"

/-- Why a text is refused. -/
inductive ReadError where
  /-- The text is no JSON text; the fault stands at `offset`, counted from zero. -/
  | malformed (cause : Cause) (line column offset : Nat)
  /-- A whole number has more digits than are converted. -/
  | numeralTooLong
  deriving DecidableEq, Repr

namespace Reader

/-- A fault where `remaining` characters of the text were still to be read. -/
inductive Fault where
  | at (cause : Cause) (remaining : Nat)
  | numeralTooLong

/-- What is left of a text after something was read. -/
abbrev Rest (cs : List Char) := { rest : List Char // rest.length < cs.length }

/-- The characters that may stand between tokens. -/
def isSpace (c : Char) : Bool := c = ' ' || c = '\t' || c = '\n' || c = '\r'

/-- The text from its first token on. -/
def skipSpace (cs : List Char) : List Char := cs.dropWhile isSpace

/-- Skipping space leaves no more than there was. -/
theorem length_skipSpace_le (cs : List Char) : (skipSpace cs).length ≤ cs.length :=
  (List.dropWhile_suffix isSpace).length_le

/-! ## Strings -/

def hexValue? (c : Char) : Option Nat :=
  let n := c.toNat
  if 48 ≤ n ∧ n ≤ 57 then some (n - 48)
  else if 65 ≤ n ∧ n ≤ 70 then some (n - 55)
  else if 97 ≤ n ∧ n ≤ 102 then some (n - 87)
  else none

/-- The number that four hexadecimal digits write. -/
def hex4? (a b c d : Char) : Option Nat := do
  let a ← hexValue? a
  let b ← hexValue? b
  let c ← hexValue? c
  let d ← hexValue? d
  return ((a * 16 + b) * 16 + c) * 16 + d

/-- The character that a letter stands for after a backslash. -/
def escaped? (c : Char) : Option Char :=
  match c with
  | '"' => some '"'
  | '\\' => some '\\'
  | '/' => some '/'
  | 'b' => some '\x08'
  | 'f' => some '\x0c'
  | 'n' => some '\n'
  | 'r' => some '\r'
  | 't' => some '\t'
  | _ => none

/-- The second half of a pair, written as an escape with a character to follow. -/
def lowHalf? : List Char → Option (Except Nat (Nat × List Char))
  | '\\' :: 'u' :: a :: b :: c :: d :: e :: rest =>
    match hex4? a b c d with
    | none => some (.error (rest.length + 6))
    | some n => if 0xDC00 ≤ n ∧ n ≤ 0xDFFF then some (.ok (n, e :: rest)) else none
  | _ => none

/-- A second half takes characters from the text. -/
theorem length_of_lowHalf? {cs rest : List Char} {n : Nat}
    (h : lowHalf? cs = some (.ok (n, rest))) : rest.length < cs.length := by
  unfold lowHalf? at h
  split at h
  · split at h
    · simp at h
    · split at h
      · simp only [Option.some.injEq, Except.ok.injEq, Prod.mk.injEq] at h
        rw [← h.2]; simp only [List.length_cons]; omega
      · simp at h
  · simp at h

/-- Read the characters of a string up to its closing quote; the opening one was followed by
    `start - 1` characters. -/
def stringBody (start : Nat) (cs : List Char) : Except Fault (List Char × Rest cs) :=
  match cs with
  | [] => .error (.at .unterminatedString start)
  | '"' :: rest => .ok ([], ⟨rest, by simp⟩)
  | ['\\'] => .error (.at .unterminatedString start)
  | '\\' :: 'u' :: a :: b :: c :: d :: e :: rest =>
    match hex4? a b c d with
    | none => .error (.at .unicodeEscape (rest.length + 6))
    | some n =>
      let pair := if 0xD800 ≤ n ∧ n ≤ 0xDBFF then lowHalf? (e :: rest) else none
      match hp : pair with
      | some (.error remaining) => .error (.at .unicodeEscape remaining)
      | some (.ok (low, rest')) =>
        have hl : rest'.length < (e :: rest).length := by
          by_cases hc : 0xD800 ≤ n ∧ n ≤ 0xDBFF
          · exact length_of_lowHalf? (by simpa [pair, hc] using hp)
          · simp [pair, hc] at hp
        do
          let (tail, r) ← stringBody start rest'
          let c := Char.ofNat (0x10000 + (n - 0xD800) * 0x400 + (low - 0xDC00))
          return (Symbol.written (.char c) ++ tail,
            ⟨r.1, by have := r.2; simp at hl ⊢; omega⟩)
      | none => do
        let (tail, r) ← stringBody start (e :: rest)
        return ((Symbol.ofNumber n).written ++ tail, ⟨r.1, by have := r.2; simp at this ⊢; omega⟩)
  | '\\' :: 'u' :: rest => .error (.at .unicodeEscape (rest.length + 1))
  | '\\' :: c :: rest =>
    match escaped? c with
    | none => .error (.at .escape (rest.length + 2))
    | some x => do
      let (tail, r) ← stringBody start rest
      return (x :: tail, ⟨r.1, by have := r.2; simp; omega⟩)
  | c :: rest =>
    if c.toNat < 0x20 then .error (.at .controlCharacter (rest.length + 1))
    else do
      let (tail, r) ← stringBody start rest
      return (Symbol.written (.char c) ++ tail, ⟨r.1, by have := r.2; simp; omega⟩)
termination_by cs.length
decreasing_by all_goals (simp only [List.length_cons] at *; omega)

/-! ## Numbers -/

/-- The number that decimal digits write. -/
def digitsValue (ds : List Char) : Nat := ds.foldl (fun n c => n * 10 + (c.toNat - 48)) 0

/-- The digits of the whole part: a zero alone, or digits that start with none; empty when the
    text starts with no digit. -/
def wholeDigits : List Char → List Char
  | '0' :: _ => ['0']
  | cs => cs.takeWhile Char.isDigit

/-- The digits after a point; empty when no point with a digit follows. -/
def fractionDigits : List Char → List Char
  | '.' :: cs => cs.takeWhile Char.isDigit
  | _ => []

/-- The sign and the digits of an exponent, and how many characters it takes; none when no
    exponent with a digit follows. -/
def exponentPart? : List Char → Option (Bool × List Char × Nat)
  | e :: cs =>
    if e = 'e' ∨ e = 'E' then
      let (negative, size, ds) :=
        match cs with
        | '-' :: cs => (true, 2, cs.takeWhile Char.isDigit)
        | '+' :: cs => (false, 2, cs.takeWhile Char.isDigit)
        | cs => (false, 1, cs.takeWhile Char.isDigit)
      if ds.isEmpty then none else some (negative, ds, size + ds.length)
    else none
  | [] => none

/-- The floating point number of a numeral's parts. -/
def floatOf (negative : Bool) (whole fraction : List Char) (exponent : Bool × List Char) :
    Binary64 :=
  let e := Int.ofNat (digitsValue exponent.2)
  let e := if exponent.1 then -e else e
  .ofDecimal negative ⟨digitsValue (whole ++ fraction), e - Int.ofNat fraction.length⟩

/-- Read a numeral; without a digit there is no value at its start. -/
def number (cs : List Char) : Except Fault (Json × Rest cs) :=
  let (negative, unsigned) :=
    match cs with
    | '-' :: rest => (true, rest)
    | _ => (false, cs)
  let whole := wholeDigits unsigned
  if whole.isEmpty then .error (.at .value cs.length)
  else
    let afterWhole := unsigned.drop whole.length
    let fraction := fractionDigits afterWhole
    let afterFraction :=
      if fraction.isEmpty then afterWhole else afterWhole.drop (fraction.length + 1)
    let exponent := exponentPart? afterFraction
    let size := (if negative then 1 else 0) + whole.length +
      (if fraction.isEmpty then 0 else fraction.length + 1) + (exponent.map (·.2.2)).getD 0
    if hs : 0 < size ∧ 0 < cs.length then
      let rest : Rest cs := ⟨cs.drop size, by simp only [List.length_drop]; omega⟩
      if fraction.isEmpty ∧ exponent.isNone then
        if maxIntegerDigits < whole.length then .error .numeralTooLong
        else
          let n := Int.ofNat (digitsValue whole)
          .ok (.int (if negative then -n else n), rest)
      else
        let e := (exponent.map fun x => (x.1, x.2.1)).getD (false, [])
        .ok (.float (floatOf negative whole fraction e), rest)
    else .error (.at .value cs.length)

/-! ## Values -/

/-- Read a word that stands for a value. -/
def word? (cs : List Char) : Option (Json × Rest cs) :=
  match cs with
  | 'n' :: 'u' :: 'l' :: 'l' :: rest => some (.null, ⟨rest, by simp; omega⟩)
  | 't' :: 'r' :: 'u' :: 'e' :: rest => some (.bool true, ⟨rest, by simp; omega⟩)
  | 'f' :: 'a' :: 'l' :: 's' :: 'e' :: rest => some (.bool false, ⟨rest, by simp; omega⟩)
  | 'N' :: 'a' :: 'N' :: rest => some (.float .nan, ⟨rest, by simp; omega⟩)
  | 'I' :: 'n' :: 'f' :: 'i' :: 'n' :: 'i' :: 't' :: 'y' :: rest =>
    some (.float (.infinite false), ⟨rest, by simp; omega⟩)
  | '-' :: 'I' :: 'n' :: 'f' :: 'i' :: 'n' :: 'i' :: 't' :: 'y' :: rest =>
    some (.float (.infinite true), ⟨rest, by simp; omega⟩)
  | _ => none

mutual
def value (cs : List Char) : Except Fault (Json × Rest cs) :=
  match cs with
  | [] => .error (.at .value 0)
  | '"' :: rest => do
    let (s, r) ← stringBody (rest.length + 1) rest
    return (.string (String.ofList s), ⟨r.1, by have := r.2; simp; omega⟩)
  | '[' :: rest =>
    have hs := length_skipSpace_le rest
    match hr : skipSpace rest with
    | ']' :: after => .ok (.array [], ⟨after, by rw [hr] at hs; simp at hs ⊢; omega⟩)
    | _ => do
      let (items, r) ← items (skipSpace rest)
      return (.array items, ⟨r.1, by have := r.2; simp; omega⟩)
  | '\x7b' :: rest =>
    have hs := length_skipSpace_le rest
    match hr : skipSpace rest with
    | '\x7d' :: after => .ok (.object [], ⟨after, by rw [hr] at hs; simp at hs ⊢; omega⟩)
    | _ => do
      let (pairs, r) ← pairs (skipSpace rest)
      return (.object (Members.collect pairs), ⟨r.1, by have := r.2; simp; omega⟩)
  | c :: rest =>
    match word? (c :: rest) with
    | some found => .ok found
    | none => number (c :: rest)
termination_by (cs.length, 0)

/-- Read the items of an array from its next item on, and the closing bracket. -/
def items (cs : List Char) : Except Fault (List Json × Rest cs) := do
  let (item, r) ← value cs
  have hr := r.2
  have hs := length_skipSpace_le r.1
  match h : skipSpace r.1 with
  | ']' :: after => .ok ([item], ⟨after, by rw [h] at hs; simp at hs; omega⟩)
  | ',' :: after =>
    have hs' := length_skipSpace_le after
    have ha : after.length < cs.length := by rw [h] at hs; simp at hs; omega
    let (rest, r') ← items (skipSpace after)
    return (item :: rest, ⟨r'.1, by have := r'.2; omega⟩)
  | other => .error (.at .comma other.length)
termination_by (cs.length, 1)

/-- Read the members of an object from its next member on, and the closing brace. -/
def pairs (cs : List Char) : Except Fault (List (String × Json) × Rest cs) :=
  match cs with
  | '"' :: inName => do
    let (name, r) ← stringBody (inName.length + 1) inName
    have hr := r.2
    have hs := length_skipSpace_le r.1
    match h : skipSpace r.1 with
    | ':' :: inValue =>
      have hv := length_skipSpace_le inValue
      have hi : inValue.length < inName.length := by rw [h] at hs; simp at hs; omega
      let (v, r₂) ← value (skipSpace inValue)
      have hr₂ := r₂.2
      have hs₂ := length_skipSpace_le r₂.1
      match h₂ : skipSpace r₂.1 with
      | '\x7d' :: after =>
        .ok ([(String.ofList name, v)], ⟨after, by rw [h₂] at hs₂; simp at hs₂ ⊢; omega⟩)
      | ',' :: after =>
        have hs₃ := length_skipSpace_le after
        have ha : after.length < inName.length := by rw [h₂] at hs₂; simp at hs₂; omega
        let (rest, r₃) ← pairs (skipSpace after)
        return ((String.ofList name, v) :: rest, ⟨r₃.1, by have := r₃.2; simp; omega⟩)
      | other => .error (.at .comma other.length)
    | other => .error (.at .colon other.length)
  | other => .error (.at .propertyName other.length)
termination_by (cs.length, 1)
end

/-- Read a whole text: one value with nothing but space around it. -/
def document (cs : List Char) : Except Fault Json :=
  match cs with
  | '\uFEFF' :: _ => .error (.at .byteOrderMark cs.length)
  | _ => do
    let (v, r) ← value (skipSpace cs)
    match skipSpace r.1 with
    | [] => return v
    | other => .error (.at .extraData other.length)

/-- The place of the character after `before`: line and column from one, offset from zero. -/
def placeAfter (before : List Char) : Nat × Nat × Nat :=
  (before.count '\n' + 1, (before.reverse.takeWhile (· ≠ '\n')).length + 1, before.length)

end Reader

/-- Read a JSON text. -/
def read (text : String) : Except ReadError Json :=
  let cs := text.toList
  match Reader.document cs with
  | .ok v => .ok v
  | .error .numeralTooLong => .error .numeralTooLong
  | .error (.at cause remaining) =>
    let (line, column, offset) := Reader.placeAfter (cs.take (cs.length - remaining))
    .error (.malformed cause line column offset)

def ReadError.message : ReadError → String
  | .malformed cause line column offset =>
    cause.message ++ ": line " ++ toString line ++ " column " ++ toString column ++
      " (char " ++ toString offset ++ ")"
  | .numeralTooLong => "Exceeds the limit (4300 digits) for integer string conversion"

end ProviderTypes.Json
