import ProviderTypes.Text.Quoted
import ProviderTypes.Yaml.PlainKind
/-!
# ProviderTypes.Yaml.Scalar

How a text may be written as a YAML scalar: unquoted, in single quotes, or in double quotes
with escapes. Unquoted is preferred, then single quotes.
-/

namespace ProviderTypes.Yaml

/-- A character that ends a line in YAML, the carriage return apart. -/
def isBreak (c : Char) : Bool := c = '\n' || c = '\x85' || c = '\u2028' || c = '\u2029'

/-- A character that separates a word from what follows. -/
def isSeparator (c : Char) : Bool := c = '\x00' || c = ' ' || c = '\t' || c = '\r' || isBreak c

/-- A character that needs an escape: a dump holds printable ASCII and line feeds only. -/
def isSpecial (c : Char) : Bool := ! (c = '\n' || (' ' ≤ c && c ≤ '~'))

/-- The styles of a scalar. -/
inductive ScalarStyle where
  | plain
  | singleQuoted
  | doubleQuoted
  deriving DecidableEq, Repr

/-- A first character that stands for a structure of its own. -/
def isLeadingIndicator (c : Char) : Bool :=
  "#,[]\x7b\x7d&*!|>'\"%@\x60".toList.contains c

/-- Whether the next character of a text separates words, or the text ends. -/
def endsWord : List Char → Bool
  | [] => true
  | c :: _ => isSeparator c

/-- Whether a text, not at its start, holds a colon that ends a word or a hash that starts one.
    The flag says whether a separator stands before the text. -/
def hasInnerIndicator (afterSeparator : Bool) : List Char → Bool
  | [] => false
  | c :: rest =>
    (c = ':' && endsWord rest) || (c = '#' && afterSeparator) ||
      hasInnerIndicator (isSeparator c) rest

/-- Whether a text reads as structure when it stands unquoted in a block. -/
def hasBlockIndicator (cs : List Char) : Bool :=
  ['-', '-', '-'].isPrefixOf cs || ['.', '.', '.'].isPrefixOf cs ||
    match cs with
    | [] => false
    | c :: rest =>
      isLeadingIndicator c || ((c = '?' || c = ':' || c = '-') && endsWord rest) ||
        hasInnerIndicator (isSeparator c) rest

/-- Whether two neighbours in a text satisfy `p` and `q`. -/
def hasPair (p q : Char → Bool) : List Char → Bool
  | c :: d :: rest => (p c && q d) || hasPair p q (d :: rest)
  | _ => false

def isMultiline (cs : List Char) : Bool := cs.any isBreak

def isSpaceOrBreak (c : Char) : Bool := c = ' ' || isBreak c

/-- Whether a text may stand unquoted in a block. -/
def allowsPlain (cs : List Char) : Bool :=
  ! ((cs.head?.map isSpaceOrBreak).getD false || (cs.getLast?.map isSpaceOrBreak).getD false ||
    cs.any isSpecial || isMultiline cs || hasBlockIndicator cs)

/-- Whether a text may stand in single quotes. -/
def allowsSingleQuoted (cs : List Char) : Bool :=
  ! (cs.any isSpecial || hasPair isBreak (· = ' ') cs || hasPair (· = ' ') isBreak cs)

/-- The style of a text. A key on one line with its value takes no line breaks. -/
def styleOf (simpleKey : Bool) (s : String) : ScalarStyle :=
  let cs := s.toList
  if plainKind s = .text && allowsPlain cs then .plain
  else if allowsSingleQuoted cs && ! (simpleKey && isMultiline cs) then .singleQuoted
  else .doubleQuoted

def escapeText (c : Char) : List Char :=
  let short (x : Char) : List Char := ['\\', x]
  match c with
  | '\x00' => short '0'
  | '\x07' => short 'a'
  | '\x08' => short 'b'
  | '\x09' => short 't'
  | '\x0a' => short 'n'
  | '\x0b' => short 'v'
  | '\x0c' => short 'f'
  | '\x0d' => short 'r'
  | '\x1b' => short 'e'
  | '"' => short '"'
  | '\\' => short '\\'
  | '\x85' => short 'N'
  | '\xa0' => short '_'
  | '\u2028' => short 'L'
  | '\u2029' => short 'P'
  | c =>
    let n := c.toNat
    if n < 0x100 then '\\' :: 'x' :: hexDigits hexDigitUpper 2 n
    else if n < 0x10000 then '\\' :: 'u' :: hexDigits hexDigitUpper 4 n
    else '\\' :: 'U' :: hexDigits hexDigitUpper 8 n

def escapeSymbol : Symbol → List Char
  | .char c => escapeText c
  | .half n => '\\' :: 'u' :: hexDigits hexDigitUpper 4 (Symbol.half n).number

/-- The character of a symbol that stands for itself inside double quotes. -/
def verbatim? : Symbol → Option Char
  | .char c => if ' ' ≤ c && c ≤ '~' && c ≠ '"' && c ≠ '\\' then some c else none
  | .half _ => none

end ProviderTypes.Yaml
