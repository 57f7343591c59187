import ProviderTypes.Text.Digit
import ProviderTypes.Yaml.Node
import ProviderTypes.Yaml.Token
/-!
# ProviderTypes.Yaml.Atom

The values of YAML scalars. A scalar that is marked as a number, a truth value or a moment has to be
written as one.
-/

namespace ProviderTypes.Yaml

namespace Atom

/-! ## Numbers -/

/-- Whether digits write a number to a base that is written in front of them or known. -/
def isIntText (base : Nat) (cs : List Char) : Bool :=
  let body := dropSign (plainNumeral cs)
  let body :=
    match base, body with
    | 2, '0' :: 'b' :: ds => ds
    | 2, '0' :: 'B' :: ds => ds
    | 8, '0' :: 'o' :: ds => ds
    | 8, '0' :: 'O' :: ds => ds
    | 16, '0' :: 'x' :: ds => ds
    | 16, '0' :: 'X' :: ds => ds
    | _, ds => ds
  let isBaseDigit (c : Char) : Bool :=
    if base = 16 then isHexDigit c else isDigit c && c.toNat - 48 < base
  someOf isBaseDigit body && (base ≠ 10 || body.length ≤ maxIntegerDigits)

/-- What keeps a text from being a whole number. -/
def intFault? (text : String) : Option Interruption :=
  let check (ok : Bool) : Option Interruption := if ok then none else some .notNumber
  match text.toList.filter (· ≠ '_') with
  | [] => some .emptyNumber
  | cs =>
    match dropSign cs with
    | [] => some .emptyNumber
    | ['0'] => none
    | '0' :: 'b' :: ds => check (isIntText 2 ds)
    | '0' :: 'x' :: ds => check (isIntText 16 ds)
    | '0' :: ds => check (isIntText 8 ('0' :: ds))
    | ds =>
      if ds.contains ':' then check ((splitColons ds).all (isIntText 10))
      else check (isIntText 10 ds)

/-- Whether a text writes a decimal with point and exponent, or names a value beyond them. -/
def isFloatText (cs : List Char) : Bool :=
  let body := dropSign (plainNumeral cs)
  let words := ["inf", "infinity", "nan"]
  if words.any fun w => w.toList = body then true
  else
    let whole := body.takeWhile isDigit
    let rest := body.drop whole.length
    let (fraction, rest) :=
      match rest with
      | '.' :: ds => (ds.takeWhile isDigit, ds.dropWhile isDigit)
      | _ => ([], rest)
    ! (whole.isEmpty && fraction.isEmpty) &&
      match rest with
      | [] => true
      | 'e' :: ds => someOf isDigit (dropSign ds)
      | _ => false

/-- How many parts to the base sixty a floating point number may have: the greatest power of
    sixty below 2^1024 is the 173rd. -/
def maxSixtieths : Nat := 174

/-- What keeps a text from being a floating point number. -/
def floatFault? (text : String) : Option Interruption :=
  match (text.toList.filter (· ≠ '_')).map Char.toLower with
  | [] => some .emptyNumber
  | cs =>
    let body := dropSign cs
    if body = ".inf".toList || body = ".nan".toList then none
    else
      let parts := splitColons body
      if ! parts.all isFloatText then some .notNumber
      else if maxSixtieths < parts.length then some .numberOverflow
      else none

/-! ## Words and moments -/

/-- The truth value of a word, whatever its case. -/
def boolOfWord? (text : String) : Option Bool :=
  let word := String.ofList (text.toList.map Char.toLower)
  if word = "yes" || word = "true" || word = "on" then some true
  else if word = "no" || word = "false" || word = "off" then some false
  else none

def daysIn (year month : Nat) : Nat :=
  if month = 2 then
    if year % 4 = 0 ∧ (year % 100 ≠ 0 ∨ year % 400 = 0) then 29 else 28
  else if month = 4 ∨ month = 6 ∨ month = 9 ∨ month = 11 then 30
  else 31

/-- Whether a time zone is less than a day off universal time. -/
def isZone : Zone → Bool
  | .universal => true
  | .offset _ hours minutes => hours * 60 + minutes < 1440

def isMoment (m : Moment) : Bool :=
  0 < m.year && 0 < m.month && m.month ≤ 12 && 0 < m.day && m.day ≤ daysIn m.year m.month &&
    match m.time with
    | none => true
    | some t =>
      t.hour < 24 && t.minute < 60 && t.second < 60 && (t.zone.map isZone).getD true

/-- What keeps a text from being a moment. -/
def momentFault? (text : String) : Option Interruption :=
  match moment? (dropFinalBreak text.toList) with
  | none => some .notMoment
  | some m => if isMoment m then none else some .noSuchMoment

/-! ## Binary data -/

/-- The number of bytes that characters of base 64 write after `quad` of a group of four, `pads`
    padding marks in a row having been passed; none when the last group is incomplete. -/
def base64Size? (quad pads size : Nat) : List Char → Option Nat
  | [] => if quad = 0 then some size else none
  | c :: rest =>
    if c = '=' then
      if 2 ≤ quad then
        if 4 ≤ quad + (pads + 1) then some size else base64Size? quad (pads + 1) size rest
      else base64Size? quad pads size rest
    else if c.isAlphanum || c = '+' || c = '/' then
      base64Size? ((quad + 1) % 4) 0 (if quad = 0 then size else size + 1) rest
    else base64Size? quad pads size rest

/-! ## Scalars -/

/-- A value, unless something keeps a text from being one. -/
def orFault (fault : Option Interruption) (a : Atom) : Except Stop Atom :=
  match fault with
  | none => .ok a
  | some cause => .error (.interrupted cause)

/-- The value of a scalar. -/
def ofScalar (tag : Tag) (text : String) : Except Stop Atom :=
  match tag with
  | .null => .ok .null
  | .bool =>
    match boolOfWord? text with
    | some b => .ok (.bool b)
    | none => .error (.interrupted .notTruthValue)
  | .int => orFault (intFault? text) .number
  | .float => orFault (floatFault? text) .number
  | .timestamp => orFault (momentFault? text) .moment
  | .binary =>
    if text.toList.all fun c => c.toNat < 128 then
      match base64Size? 0 0 0 text.toList with
      | some size => .ok (.bytes size)
      | none => .error .malformed
    else .error .malformed
  | .str => .ok (.text text)
  | _ => .error .malformed

end Atom

end ProviderTypes.Yaml
