import ProviderTypes.Text.Blank
/-!
# ProviderTypes.Text.Digit

The decimal digits of all scripts of Unicode 14, and the numerals that they write. Where a
number is asked for, a digit of any script counts, and blanks around it do not.
-/

namespace ProviderTypes

/-- The zeros of the scripts. The other nine digits of a script follow its zero. -/
def zeroDigits : List Nat :=
  [0x30, 0x660, 0x6F0, 0x7C0, 0x966, 0x9E6, 0xA66, 0xAE6, 0xB66, 0xBE6, 0xC66, 0xCE6, 0xD66,
    0xDE6, 0xE50, 0xED0, 0xF20, 0x1040, 0x1090, 0x17E0, 0x1810, 0x1946, 0x19D0, 0x1A80, 0x1A90,
    0x1B50, 0x1BB0, 0x1C40, 0x1C50, 0xA620, 0xA8D0, 0xA900, 0xA9D0, 0xA9F0, 0xAA50, 0xABF0,
    0xFF10, 0x104A0, 0x10D30, 0x11066, 0x110F0, 0x11136, 0x111D0, 0x112F0, 0x11450, 0x114D0,
    0x11650, 0x116C0, 0x11730, 0x118E0, 0x11950, 0x11C50, 0x11D50, 0x11DA0, 0x16A60, 0x16AC0,
    0x16B50, 0x1D7CE, 0x1D7D8, 0x1D7E2, 0x1D7EC, 0x1D7F6, 0x1E140, 0x1E2F0, 0x1E950, 0x1FBF0]

/-- The value of a digit of any script. -/
def decimal? (c : Char) : Option Nat :=
  (zeroDigits.find? fun first => first ≤ c.toNat && c.toNat < first + 10).map (c.toNat - ·)

/-- The most digits of a whole number to the base ten that are read as a number. -/
def maxIntegerDigits : Nat := 4300

/-- A character of a numeral as ASCII writes it: a digit of any script as a digit, a wide blank
    as a space. -/
def plainNumeralChar (c : Char) : Char :=
  if c.toNat < 128 then c
  else if isBlank c then ' '
  else
    match decimal? c with
    | some d => Char.ofNat (48 + d)
    | none => c

/-- A blank that may stand around a numeral. -/
def isNumeralBlank (c : Char) : Bool := c = ' ' || ('\t' ≤ c && c ≤ '\r')

/-- A numeral as ASCII writes it, without the blanks around it. -/
def plainNumeral (cs : List Char) : List Char :=
  let cs := (cs.map plainNumeralChar).dropWhile isNumeralBlank
  (cs.reverse.dropWhile isNumeralBlank).reverse

end ProviderTypes
