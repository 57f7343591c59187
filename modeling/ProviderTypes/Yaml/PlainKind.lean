/-!
# ProviderTypes.Yaml.PlainKind

What an unquoted scalar of YAML 1.1 stands for: a truth value, a number, a moment, nothing, or
a text. A writer quotes every text that would stand for something else. A line feed at the end
of a scalar does not count, save where nothing stands before it.

The forms of numbers and moments are written here as predicates on characters, one per
alternative of the format.
-/

namespace ProviderTypes.Yaml

/-- What an unquoted scalar stands for. -/
inductive PlainKind where
  | bool
  | float
  | int
  /-- The mark of merged mappings. -/
  | merge
  | null
  | timestamp
  /-- The mark of a default value. -/
  | value
  /-- A mark of the format itself, which stands for nothing. -/
  | mark
  | text
  deriving DecidableEq, Repr

/-! ## Characters -/

/-- A text without one line feed at its end. -/
def dropFinalBreak (cs : List Char) : List Char :=
  if cs.getLast? = some '\n' then cs.dropLast else cs

def isDigit (c : Char) : Bool := '0' ≤ c && c ≤ '9'

/-- A decimal digit or the separator of digits. -/
def isDigitOrGap (c : Char) : Bool := isDigit c || c = '_'

def isHexDigit (c : Char) : Bool :=
  isDigit c || ('a' ≤ c && c ≤ 'f') || ('A' ≤ c && c ≤ 'F')

/-- The text without a sign in front. -/
def dropSign : List Char → List Char
  | '-' :: cs => cs
  | '+' :: cs => cs
  | cs => cs

/-- One or more characters of a class. -/
def someOf (p : Char → Bool) (cs : List Char) : Bool := ! cs.isEmpty && cs.all p

def splitColons : List Char → List (List Char)
  | [] => [[]]
  | ':' :: cs => [] :: splitColons cs
  | c :: cs =>
    match splitColons cs with
    | [] => [[c]]
    | first :: others => (c :: first) :: others

/-- One or two digits below sixty. -/
def isSixtieth : List Char → Bool
  | [d] => isDigit d
  | [t, d] => '0' ≤ t && t ≤ '5' && isDigit d
  | _ => false

/-! ## Numbers -/

/-- A digit, and then digits and gaps. -/
def isWhole : List Char → Bool
  | d :: cs => isDigit d && cs.all isDigitOrGap
  | [] => false

/-- A number without leading zeros. -/
def isPositiveWhole : List Char → Bool
  | d :: cs => '1' ≤ d && d ≤ '9' && cs.all isDigitOrGap
  | [] => false

/-- The forms of whole numbers: binary, octal, decimal, hexadecimal, and to the base sixty. -/
def isInt (cs : List Char) : Bool :=
  let body := dropSign cs
  match body with
  | '0' :: 'b' :: ds => someOf (fun c => c = '0' || c = '1' || c = '_') ds
  | '0' :: 'x' :: ds => someOf (fun c => isHexDigit c || c = '_') ds
  | ['0'] => true
  | '0' :: ds => ds.all fun c => ('0' ≤ c && c ≤ '7') || c = '_'
  | _ =>
    match splitColons body with
    | whole :: sixtieths => isPositiveWhole whole && sixtieths.all isSixtieth
    | [] => false

/-- Nothing, or an exponent with a sign. -/
def isExponent? : List Char → Bool
  | [] => true
  | e :: sign :: ds => (e = 'e' || e = 'E') && (sign = '-' || sign = '+') && someOf isDigit ds
  | _ => false

/-- What follows the point of a number: digits and gaps, and perhaps an exponent. -/
def isFraction (cs : List Char) : Bool := isExponent? (cs.dropWhile isDigitOrGap)

/-- The forms of floating point numbers. -/
def isFloat (cs : List Char) : Bool :=
  let body := dropSign cs
  let beforePoint := body.takeWhile (· ≠ '.')
  let afterPoint := body.drop (beforePoint.length + 1)
  let hasPoint := beforePoint.length < body.length
  hasPoint &&
    (if beforePoint.isEmpty then
      [['i', 'n', 'f'], ['I', 'n', 'f'], ['I', 'N', 'F']].contains afterPoint ||
        (body = cs &&
          ([['n', 'a', 'n'], ['N', 'a', 'N'], ['N', 'A', 'N']].contains afterPoint ||
            ((afterPoint.head?.map isDigit).getD false && isFraction afterPoint)))
    else
      match splitColons beforePoint with
      | whole :: sixtieths =>
        isWhole whole &&
          (if sixtieths.isEmpty then isFraction afterPoint
           else sixtieths.all isSixtieth && afterPoint.all isDigitOrGap)
      | [] => false)

/-! ## Moments -/

/-- The leading digits of a text, `least` to `most` of them, and the rest. -/
def takeDigits? (least most : Nat) (cs : List Char) : Option (List Char × List Char) :=
  let ds := (cs.take most).takeWhile isDigit
  if least ≤ ds.length then some (ds, cs.drop ds.length) else none

/-- The rest of a text after a character. -/
def dropChar? (c : Char) : List Char → Option (List Char)
  | d :: cs => if d = c then some cs else none
  | [] => none

/-- The offset of a time zone from universal time. -/
inductive Zone where
  | universal
  | offset (negative : Bool) (hours minutes : Nat)
  deriving DecidableEq, Repr

/-- A time of a day as written. -/
structure TimeOfDay where
  hour : Nat
  minute : Nat
  second : Nat
  zone : Option Zone
  deriving DecidableEq, Repr

/-- A moment as written: a date, perhaps with a time. -/
structure Moment where
  year : Nat
  month : Nat
  day : Nat
  time : Option TimeOfDay
  deriving DecidableEq, Repr

/-- The number that digits write. -/
def digitsNumber (ds : List Char) : Nat := ds.foldl (fun n c => n * 10 + (c.toNat - 48)) 0

/-- A blank within a moment. -/
def isMomentBlank (c : Char) : Bool := c = ' ' || c = '\t'

/-- A time zone up to the end of a text. -/
def zone? (cs : List Char) : Option (Option Zone) :=
  match cs.dropWhile isMomentBlank with
  | [] => if cs.isEmpty then some none else none
  | ['Z'] => some (some .universal)
  | sign :: rest =>
    if sign = '-' || sign = '+' then do
      let (h, rest) ← takeDigits? 1 2 rest
      if rest.isEmpty then return some (.offset (sign = '-') (digitsNumber h) 0)
      let rest ← dropChar? ':' rest
      let (m, rest) ← takeDigits? 2 2 rest
      if rest.isEmpty then return some (.offset (sign = '-') (digitsNumber h) (digitsNumber m))
      none
    else none

/-- A time of a day up to the end of a text. -/
def timeOfDay? (cs : List Char) : Option TimeOfDay := do
  let (h, rest) ← takeDigits? 1 2 cs
  let rest ← dropChar? ':' rest
  let (m, rest) ← takeDigits? 2 2 rest
  let rest ← dropChar? ':' rest
  let (s, rest) ← takeDigits? 2 2 rest
  let rest :=
    match rest with
    | '.' :: rest => rest.dropWhile isDigit
    | _ => rest
  let zone ← zone? rest
  return { hour := digitsNumber h, minute := digitsNumber m, second := digitsNumber s, zone }

/-- A moment as it may be written where a moment is asked for. -/
def moment? (cs : List Char) : Option Moment := do
  let (y, rest) ← takeDigits? 4 4 cs
  let rest ← dropChar? '-' rest
  let (m, rest) ← takeDigits? 1 2 rest
  let rest ← dropChar? '-' rest
  let (d, rest) ← takeDigits? 1 2 rest
  let date : Moment :=
    { year := digitsNumber y, month := digitsNumber m, day := digitsNumber d, time := none }
  match rest with
  | [] => return date
  | c :: rest' =>
    if c = 'T' || c = 't' then
      let time ← timeOfDay? rest'
      return { date with time := some time }
    else if isMomentBlank c then
      let time ← timeOfDay? (rest'.dropWhile isMomentBlank)
      return { date with time := some time }
    else none

/-- The form of a moment that needs no mark: a date alone has two digits for month and day. -/
def isTimestamp (cs : List Char) : Bool :=
  match moment? cs with
  | some m => m.time.isSome || cs.length = 10
  | none => false

/-! ## Words -/

def boolWords : List String :=
  ["yes", "Yes", "YES", "no", "No", "NO", "true", "True", "TRUE", "false", "False", "FALSE",
    "on", "On", "ON", "off", "Off", "OFF"]

def nullWords : List String := ["~", "null", "Null", "NULL"]

/-- The marks of tags, anchors and aliases. -/
def markWords : List String := ["!", "&", "*"]

/-- What an unquoted scalar stands for. -/
def plainKind (s : String) : PlainKind :=
  let cs := dropFinalBreak s.toList
  let word := String.ofList cs
  if s = "" then .null
  else if word ∈ boolWords then .bool
  else if isFloat cs then .float
  else if isInt cs then .int
  else if word = "<<" then .merge
  else if word ∈ nullWords then .null
  else if isTimestamp cs then .timestamp
  else if word = "=" then .value
  else if word ∈ markWords then .mark
  else .text

end ProviderTypes.Yaml
