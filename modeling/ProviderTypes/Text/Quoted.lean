import ProviderTypes.Text.Printable
import ProviderTypes.Text.Symbol
/-!
# ProviderTypes.Text.Quoted

Texts and lists as messages quote them. A text stands between single quotes, or between double
quotes when it holds single ones only; the quote, the backslash, characters that cannot be shown and
halves of surrogate pairs are escaped.
-/

namespace ProviderTypes

/-- The lower case hexadecimal digit of a number below sixteen. -/
def hexDigitLower (n : Nat) : Char :=
  if n < 10 then Char.ofNat (48 + n) else Char.ofNat (87 + n)

/-- The upper case hexadecimal digit of a number below sixteen. -/
def hexDigitUpper (n : Nat) : Char :=
  if n < 10 then Char.ofNat (48 + n) else Char.ofNat (55 + n)

/-- The last `width` hexadecimal digits of a number. -/
def hexDigits (digit : Nat → Char) : (width : Nat) → Nat → List Char
  | 0, _ => []
  | width + 1, n => hexDigits digit width (n / 16) ++ [digit (n % 16)]

namespace Quoted

/-- The quote mark a text is written in: double when it holds single quotes and no double one. -/
def mark (cs : List Char) : Char :=
  if '\'' ∈ cs ∧ '"' ∉ cs then '"' else '\''

/-- One character inside the quotes `mark`. -/
def escapeChar (mark c : Char) : List Char :=
  if c = mark ∨ c = '\\' then ['\\', c]
  else if c = '\n' then ['\\', 'n']
  else if c = '\r' then ['\\', 'r']
  else if c = '\t' then ['\\', 't']
  else if isPrintable c then [c]
  else
    let n := c.toNat
    if n < 0x100 then '\\' :: 'x' :: hexDigits hexDigitLower 2 n
    else if n < 0x10000 then '\\' :: 'u' :: hexDigits hexDigitLower 4 n
    else '\\' :: 'U' :: hexDigits hexDigitLower 8 n

/-- One symbol inside the quotes `mark`. -/
def escapeSymbol (mark : Char) : Symbol → List Char
  | .char c => escapeChar mark c
  | .half n => '\\' :: 'u' :: hexDigits hexDigitLower 4 (Symbol.half n).number

/-- The text between its quote marks. -/
def encode (cs : List Char) : List Char :=
  let q := mark cs
  q :: ((Symbol.symbols cs).flatMap (escapeSymbol q) ++ [q])

end Quoted

/-- A text as messages quote it. -/
def quoted (s : String) : String := String.ofList (Quoted.encode s.toList)

/-- A list of written values in square brackets. -/
def bracketed (items : List String) : String := "[" ++ ", ".intercalate items ++ "]"

/-- A list of written values in round brackets; a single one keeps a comma, to tell it from a
    value in brackets. -/
def parenthesised : List String → String
  | [item] => "(" ++ item ++ ",)"
  | items => "(" ++ ", ".intercalate items ++ ")"

end ProviderTypes
