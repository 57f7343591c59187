/-!
# ProviderTypes.Number.Binary64

Floating point numbers of 64 bits, read from decimal numerals and written with the fewest
digits that read back. All arithmetic is exact, on natural numbers: a number is its mantissa
and its power of two.

Main definitions: `Binary64.ofDecimal` rounds a decimal to the nearest number, a tie to the
even mantissa; `Binary64.shortest` finds the shortest decimal in the interval of reals that
round to a number, and of those the nearest; `Binary64.text` lays it out.
-/

namespace ProviderTypes

/-- A floating point number: `finite s m e` is `m * 2 ^ e`, negative when `s` holds. -/
inductive Binary64 where
  | nan
  | infinite (negative : Bool)
  | finite (negative : Bool) (mantissa : Nat) (exponent : Int)
  deriving DecidableEq, Repr

/-- A decimal number: `digits * 10 ^ exponent`. -/
structure Decimal where
  digits : Nat
  exponent : Int
  deriving DecidableEq, Repr

namespace Binary64

def minExponent : Int := -1074

def maxExponent : Int := 971

/-- A quotient of natural numbers rounded to the nearest, a tie to the even neighbour. -/
def roundDiv (num den : Nat) : Nat :=
  let q := num / den
  let r := num % den
  if 2 * r < den then q
  else if den < 2 * r then q + 1
  else if q % 2 = 0 then q else q + 1

/-- `num / den` scaled by `base ^ e`, as a fraction. -/
def scaled (base num den : Nat) (e : Int) : Nat × Nat :=
  if 0 ≤ e then (num * base.pow e.toNat, den) else (num, den * base.pow (-e).toNat)

/-- The nearest number to the positive fraction `num / den`. -/
def ofFraction (negative : Bool) (num den : Nat) : Binary64 :=
  let estimate : Int := Int.ofNat num.log2 - Int.ofNat den.log2
  let atLeast (e : Int) : Bool :=
    let f := scaled 2 num den (-e)
    f.2 ≤ f.1
  let log := if atLeast estimate then estimate else estimate - 1
  let e := max (log - 52) minExponent
  let f := scaled 2 num den (-e)
  let m := roundDiv f.1 f.2
  let (m, e) := if m = Nat.pow 2 53 then (Nat.pow 2 52, e + 1) else (m, e)
  if maxExponent < e then .infinite negative else .finite negative m e

def digitCount (n : Nat) : Nat := (Nat.toDigits 10 n).length

/-- The nearest number to a decimal. Decimals that are out of every number's range by their
    length and exponent alone are settled before any power of ten is formed. -/
def ofDecimal (negative : Bool) (d : Decimal) : Binary64 :=
  if d.digits = 0 then .finite negative 0 minExponent
  else
    let top := Int.ofNat (digitCount d.digits) + d.exponent
    if 310 < top then .infinite negative
    else if top < -330 then .finite negative 0 minExponent
    else
      let f := scaled 10 d.digits 1 d.exponent
      ofFraction negative f.1 f.2

/-- The power of ten of the first digit of the positive fraction `num / den`. -/
def leadingExponent (num den : Nat) : Int :=
  let estimate : Int := Int.ofNat (digitCount num) - Int.ofNat (digitCount den)
  let f := scaled 10 num den (-estimate)
  if f.2 ≤ f.1 then estimate else estimate - 1

/-- The shortest decimal that reads back as the positive number `m * 2 ^ e`, trying `fuel`
    further digit counts from `count` on. -/
def shortestFrom (m : Nat) (e : Int) (count : Nat) : (fuel : Nat) → Decimal
  | 0 => ⟨m, 0⟩
  | fuel + 1 =>
    -- four times the value and the ends of the interval that rounds to it
    let v := scaled 2 (4 * m) 4 e
    let below := if m = Nat.pow 2 52 ∧ minExponent < e then 1 else 2
    let low := (scaled 2 (4 * m - below) 4 e).1
    let high := (scaled 2 (4 * m + 2) 4 e).1
    let den := v.2
    let unit := leadingExponent v.1 den + 1 - Int.ofNat count
    let f := scaled 10 v.1 den (-unit)
    let d := f.1 / f.2
    let inside (c : Nat) : Bool :=
      -- c * 10 ^ unit against low / den and high / den
      let u := scaled 10 c 1 unit
      let x := u.1 * den
      if m % 2 = 0 then low * u.2 ≤ x && x ≤ high * u.2
      else low * u.2 < x && x < high * u.2
    let nearer := roundDiv f.1 f.2
    let farther := if nearer = d then d + 1 else d
    if inside nearer then ⟨nearer, unit⟩
    else if inside farther then ⟨farther, unit⟩
    else shortestFrom m e (count + 1) fuel

/-- The shortest decimal that reads back as the positive number `m * 2 ^ e`; seventeen digits
    always suffice. -/
def shortest (m : Nat) (e : Int) : Decimal := shortestFrom m e 1 17

/-- Digits with their trailing zeros moved into the exponent. -/
def trimZeros (digits : List Char) : List Char := (digits.reverse.dropWhile (· = '0')).reverse

/-- Lay out digits of which the first has the power of ten `point`: plain between `10 ^ (-4)`
    and `10 ^ 16` with at least one digit after the point, else with an exponent of at least
    two digits. -/
def layout (digits : List Char) (point : Int) : String :=
  if -4 ≤ point ∧ point < 16 then
    if point < 0 then
      "0." ++ String.ofList (List.replicate (-point - 1).toNat '0' ++ digits)
    else
      let whole := point.toNat + 1
      let padded := digits ++ List.replicate (whole - digits.length) '0'
      let fraction := padded.drop whole
      String.ofList (padded.take whole) ++ "." ++
        String.ofList (if fraction.isEmpty then ['0'] else fraction)
  else
    let size := (toString point.natAbs).toList
    let exponent :=
      (if point < 0 then '-' else '+') :: (List.replicate (2 - size.length) '0' ++ size)
    let fraction := if digits.length ≤ 1 then [] else '.' :: digits.drop 1
    String.ofList (digits.take 1 ++ fraction ++ 'e' :: exponent)

/-- The shortest text that reads back as the number. -/
def text : Binary64 → String
  | .nan => "nan"
  | .infinite negative => if negative then "-inf" else "inf"
  | .finite negative m e =>
    let body :=
      if m = 0 then "0.0"
      else
        let d := shortest m e
        let digits := Nat.toDigits 10 d.digits
        layout (trimZeros digits) (d.exponent + Int.ofNat digits.length - 1)
    if negative then "-" ++ body else body

end Binary64

end ProviderTypes
