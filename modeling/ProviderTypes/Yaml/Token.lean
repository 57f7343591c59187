import ProviderTypes.Text.Digit
import ProviderTypes.Text.Utf8
import ProviderTypes.Yaml.Library
/-!
# ProviderTypes.Yaml.Token

The tokens of a YAML text. Indentation becomes tokens of its own: a block collection opens
where its first entry stands further right than the collection around it, and closes where a
later token stands further left. A mapping key on one line with its value is known as a key
only when the colon after it is met; until then its place is remembered.

Loops over the text are bounded by its length.
-/

namespace ProviderTypes.Yaml

/-- A token. -/
inductive Token where
  /-- The version that a document is written for. -/
  | versionDirective (major : Nat)
  /-- An abbreviation for tags. -/
  | tagDirective (handle tagPrefix : String)
  | otherDirective
  | documentStart
  | documentEnd
  | streamEnd
  | blockSequenceStart
  | blockMappingStart
  | blockEnd
  | flowSequenceStart
  | flowSequenceEnd
  | flowMappingStart
  | flowMappingEnd
  | blockEntry
  | flowEntry
  | key
  | value
  | alias (name : String)
  | anchor (name : String)
  | tag (handle : Option String) (suffix : String)
  | scalar (text : String) (unquoted : Bool)
  deriving DecidableEq, Repr

/-- A key that may be on one line with its value. -/
structure PossibleKey where
  /-- The number of its first token. -/
  tokenNumber : Nat
  /-- Whether nothing else may stand at its place. -/
  required : Bool
  index : Nat
  line : Nat
  column : Nat

/-- Where the scanner stands, and what it found. -/
structure Scanner where
  /-- How many characters the text has. -/
  size : Nat
  rest : List Char
  index : Nat := 0
  line : Nat := 0
  column : Nat := 0
  /-- How many flow collections are open. -/
  flowLevel : Nat := 0
  /-- The tokens that no key can come before any more, the last one first. -/
  released : List Token := []
  /-- How many tokens these are. -/
  releasedCount : Nat := 0
  /-- The tokens after them, which are held back. -/
  held : Array Token := #[]
  /-- The column of the innermost block collection, or -1. -/
  indent : Int := -1
  /-- The columns of the block collections around it. -/
  indents : List Int := []
  /-- Whether a key may start here. -/
  allowKey : Bool := true
  /-- The possible key of each flow level. -/
  possibleKeys : List (Nat × PossibleKey) := []

/-- A step of the scanner. -/
abbrev Scan := StateT Scanner (Except Stop)

namespace Scan

/-! ## Characters -/

/-- The mark of the end of the text; the text itself never holds it. -/
def endMark : Char := '\x00'

def isLineEnd (c : Char) : Bool :=
  c = '\r' || c = '\n' || c = '\x85' || c = '\u2028' || c = '\u2029'

def isEnd (c : Char) : Bool := c = endMark || isLineEnd c

def isSpaceOrEnd (c : Char) : Bool := c = ' ' || isEnd c

def isBlankOrEnd (c : Char) : Bool := c = '\t' || isSpaceOrEnd c

/-- A character of the names of anchors and directives. -/
def isNameChar (c : Char) : Bool :=
  ('0' ≤ c && c ≤ '9') || ('A' ≤ c && c ≤ 'Z') || ('a' ≤ c && c ≤ 'z') || c = '-' || c = '_'

/-- A character that may stand in a text. -/
def isAllowed (c : Char) : Bool :=
  let n := c.toNat
  n = 0x09 || n = 0x0A || n = 0x0D || (0x20 ≤ n && n ≤ 0x7E) || n = 0x85 ||
    (0xA0 ≤ n && n ≤ 0xD7FF) || (0xE000 ≤ n && n ≤ 0xFFFD) || (0x10000 ≤ n && n ≤ 0x10FFFF)

def fail {α : Type} : Scan α := throw .malformed

/-- The character `n` places ahead. -/
def peek (n : Nat) : Scan Char := return ((← get).rest.drop n).headD endMark

def step : Scan Unit := modify fun s =>
  match s.rest with
  | [] => s
  | c :: rest =>
    let breaks := c = '\n' || c = '\x85' || c = '\u2028' || c = '\u2029' ||
      (c = '\r' && rest.head? ≠ some '\n')
    { s with
      rest
      index := s.index + 1
      line := if breaks then s.line + 1 else s.line
      column := if breaks then 0 else if c = '\uFEFF' then s.column else s.column + 1 }

def forward : Nat → Scan Unit
  | 0 => return
  | n + 1 => do step; forward n

def takeWhile (p : Char → Bool) : Scan (List Char) := do
  let cs := (← get).rest.takeWhile p
  forward cs.length
  return cs

/-- A bound on the number of steps that remain. -/
def bound : Scan Nat := return (← get).size + 2

/-- Parts of a text in order, from parts that the last one stands first of. -/
def joined (parts : List (List Char)) : List Char := parts.reverse.flatten

/-- Pass a line break, and answer what it stands for; nothing when there is none. -/
def lineBreak : Scan (List Char) := do
  let c ← peek 0
  if c = '\r' || c = '\n' || c = '\x85' then
    if c = '\r' && (← peek 1) = '\n' then forward 2 else forward 1
    return ['\n']
  else if c = '\u2028' || c = '\u2029' then
    forward 1
    return [c]
  else return []

/-- Whether a document mark stands here: three times the same character, and then a blank or
    an end. -/
def atMark (c : Char) : Scan Bool := do
  return (← peek 0) = c && (← peek 1) = c && (← peek 2) = c && isBlankOrEnd (← peek 3)

/-- Whether any document mark stands here. -/
def atAnyMark : Scan Bool := do
  return (← atMark '-') || (← atMark '.')

/-! ## Space and comments -/

def comment : Scan Unit := do
  if (← peek 0) = '#' then
    let _ ← takeWhile fun c => ! isEnd c

/-- Pass spaces, comments and line breaks. -/
def toNextToken : (fuel : Nat) → Scan Unit
  | 0 => return
  | fuel + 1 => do
    let _ ← takeWhile (· = ' ')
    comment
    if (← lineBreak).isEmpty then return
    modify fun s => { s with allowKey := s.allowKey || s.flowLevel = 0 }
    toNextToken fuel

/-- Pass the rest of a line that may hold a comment only. -/
def endOfLine : Scan Unit := do
  let _ ← takeWhile (· = ' ')
  comment
  unless isEnd (← peek 0) do fail
  let _ ← lineBreak

/-! ## Indentation and keys -/

def emit (t : Token) : Scan Unit := modify fun s => { s with held := s.held.push t }

/-- Close the block collections that stand right of a column. -/
def unwind (column : Int) : List Int → Scan Unit
  | [] => return
  | outer :: indents => do
    let s ← get
    if s.flowLevel = 0 && column < s.indent then
      set { s with indent := outer, indents }
      emit .blockEnd
      unwind column indents

/-- Close the block collections that stand right of a column. -/
def unwindTo (column : Int) : Scan Unit := do unwind column (← get).indents

/-- Open a block collection at a column, unless one is open there. -/
def addIndent (column : Nat) : Scan Bool := do
  let s ← get
  if s.indent < column then
    set { s with indent := (column : Int), indents := s.indent :: s.indents }
    return true
  else return false

/-- Forget the possible keys that a line end or their length rules out. -/
def dropStaleKeys : Scan Unit := do
  let s ← get
  let stale (k : PossibleKey) : Bool := k.line ≠ s.line || k.index + 1024 < s.index
  if s.possibleKeys.any fun p => stale p.2 && p.2.required then fail
  set { s with possibleKeys := s.possibleKeys.filter fun p => ! stale p.2 }

/-- Forget the possible key of this flow level. -/
def removeKey : Scan Unit := do
  let s ← get
  match s.possibleKeys.lookup s.flowLevel with
  | none => return
  | some k =>
    if k.required then fail
    set { s with possibleKeys := s.possibleKeys.filter fun p => p.1 ≠ s.flowLevel }

/-- Remember that a key may start here. -/
def saveKey : Scan Unit := do
  if (← get).allowKey then
    let required := (← get).flowLevel = 0 && (← get).indent = (← get).column
    removeKey
    modify fun s =>
      let k : PossibleKey :=
        { tokenNumber := s.releasedCount + s.held.size, required, index := s.index, line := s.line
          column := s.column }
      { s with possibleKeys := (s.flowLevel, k) :: s.possibleKeys }

def setAllowKey (b : Bool) : Scan Unit := modify fun s => { s with allowKey := b }

/-- Add a token before the token of a number, which is held back. -/
def insertToken (number : Nat) (t : Token) : Scan Unit := modify fun s =>
  let n := number - s.releasedCount
  { s with held := s.held.take n ++ #[t] ++ s.held.drop n }

/-! ## Directives, anchors and tags -/

def versionNumber : Scan Nat := do
  let ds ← takeWhile fun c => '0' ≤ c && c ≤ '9'
  if ds.isEmpty then fail
  if maxIntegerDigits < ds.length then throw (.interrupted .notNumber)
  return ds.foldl (fun n c => n * 10 + (c.toNat - 48)) 0

/-- A byte of a character that a tag writes with percent signs. -/
def escapedByte : Scan UInt8 := do
  forward 1
  let value? (c : Char) : Option Nat :=
    if '0' ≤ c && c ≤ '9' then some (c.toNat - 48)
    else if 'a' ≤ c && c ≤ 'f' then some (c.toNat - 87)
    else if 'A' ≤ c && c ≤ 'F' then some (c.toNat - 55)
    else none
  match value? (← peek 0), value? (← peek 1) with
  | some a, some b => do
    forward 2
    return UInt8.ofNat (a * 16 + b)
  | _, _ => fail

/-- The bytes of characters that a tag writes with percent signs. -/
def escapedBytes : (fuel : Nat) → Scan (List UInt8)
  | 0 => return []
  | fuel + 1 => do
    if (← peek 0) = '%' then
      let b ← escapedByte
      return b :: (← escapedBytes fuel)
    else return []

def isTagChar (c : Char) : Bool :=
  isNameChar c || ";/?:@&=+$,.!~*'()[]".toList.contains c

def tagText : (fuel : Nat) → Scan (List Char)
  | 0 => return []
  | fuel + 1 => do
    let cs ← takeWhile isTagChar
    if (← peek 0) = '%' then
      let bytes ← escapedBytes (← bound)
      match Utf8.decode bytes with
      | .error _ => fail
      | .ok text => return cs ++ text.toList ++ (← tagText fuel)
    else return cs

/-- The characters of a tag, at least one. -/
def someTagText : Scan String := do
  let cs ← tagText (← bound)
  if cs.isEmpty then fail
  return String.ofList cs

/-- The handle of a tag: an exclamation mark, alone or at both ends of a name. -/
def tagHandle : Scan String := do
  unless (← peek 0) = '!' do fail
  if (← peek 1) = ' ' then
    forward 1
    return "!"
  else
    forward 1
    let name ← takeWhile isNameChar
    unless (← peek 0) = '!' do fail
    forward 1
    return String.ofList ('!' :: name ++ ['!'])

def directive : Scan Token := do
  forward 1
  let name ← takeWhile isNameChar
  if name.isEmpty then fail
  unless isSpaceOrEnd (← peek 0) do fail
  let token ←
    if name = ['Y', 'A', 'M', 'L'] then do
      let _ ← takeWhile (· = ' ')
      let major ← versionNumber
      unless (← peek 0) = '.' do fail
      forward 1
      let _ ← versionNumber
      unless isSpaceOrEnd (← peek 0) do fail
      pure (Token.versionDirective major)
    else if name = ['T', 'A', 'G'] then do
      let _ ← takeWhile (· = ' ')
      let handle ← tagHandle
      unless (← peek 0) = ' ' do fail
      let _ ← takeWhile (· = ' ')
      let tagPrefix ← someTagText
      unless isSpaceOrEnd (← peek 0) do fail
      pure (Token.tagDirective handle tagPrefix)
    else do
      let _ ← takeWhile fun c => ! isEnd c
      pure Token.otherDirective
  endOfLine
  return token

def anchorName : Scan String := do
  forward 1
  let name ← takeWhile isNameChar
  if name.isEmpty then fail
  let c ← peek 0
  unless isBlankOrEnd c || "?:,]\x7d%@\x60".toList.contains c do fail
  return String.ofList name

def tag : Scan Token := do
  let c ← peek 1
  let token ←
    if c = '<' then do
      forward 2
      let suffix ← someTagText
      unless (← peek 0) = '>' do fail
      forward 1
      pure (Token.tag none suffix)
    else if isBlankOrEnd c then do
      forward 1
      pure (Token.tag none "!")
    else do
      let word := ((← get).rest.drop 1).takeWhile fun c => ! isSpaceOrEnd c
      let handle ←
        if word.contains '!' then tagHandle
        else do
          forward 1
          pure "!"
      let suffix ← someTagText
      pure (Token.tag (some handle) suffix)
  unless isSpaceOrEnd (← peek 0) do fail
  return token

/-! ## Block scalars -/

/-- What happens to the line breaks at the end of a block scalar. -/
inductive Chomping where
  | clip
  | strip
  | keep
  deriving DecidableEq

def chomping? (c : Char) : Option Chomping :=
  if c = '+' then some .keep else if c = '-' then some .strip else none

/-- The indentation that a digit asks for. -/
def increment? (c : Char) : Option Nat :=
  if '0' ≤ c && c ≤ '9' then some (c.toNat - 48) else none

/-- The digit of a block scalar's head, which is not zero. -/
def increment : Scan (Option Nat) := do
  match increment? (← peek 0) with
  | none => return none
  | some 0 => fail
  | some n =>
    forward 1
    return some n

/-- The head of a block scalar: chomping and indentation, in either order. -/
def blockHead : Scan (Chomping × Option Nat) := do
  let head ←
    match chomping? (← peek 0) with
    | some chomping => do
      forward 1
      pure (chomping, ← increment)
    | none => do
      let n ← increment
      let c ← peek 0
      match if n.isSome then chomping? c else none with
      | some chomping => do
        forward 1
        pure (chomping, n)
      | none => pure (Chomping.clip, n)
  unless isSpaceOrEnd (← peek 0) do fail
  return head

/-- Pass the empty lines before a block scalar; answer their breaks and the greatest column. -/
def blockIndentation (breaks : List Char) (column : Nat) : (fuel : Nat) → Scan (List Char × Nat)
  | 0 => return (breaks, column)
  | fuel + 1 => do
    let c ← peek 0
    if c = ' ' then
      forward 1
      blockIndentation breaks (max column (← get).column) fuel
    else if isLineEnd c then
      let b ← lineBreak
      blockIndentation (breaks ++ b) column fuel
    else return (breaks, column)

/-- Pass up to `indent` columns of spaces. -/
def spacesTo (indent : Nat) : Scan Unit := do
  let s ← get
  let spaces := (s.rest.take (indent - s.column)).takeWhile (· = ' ')
  forward spaces.length

/-- Pass empty lines within a block scalar; answer their breaks. -/
def blockBreaks (indent : Nat) (breaks : List Char) : (fuel : Nat) → Scan (List Char)
  | 0 => return breaks
  | fuel + 1 => do
    spacesTo indent
    if isLineEnd (← peek 0) then
      let b ← lineBreak
      blockBreaks indent (breaks ++ b) fuel
    else return breaks

/-- Whether a line of a block scalar starts here. -/
def atBlockLine (indent : Nat) : Scan Bool := do
  return (← get).column = indent && (← peek 0) ≠ endMark

/-- The lines of a block scalar after `parts`: its text, and the breaks after the last line. -/
def blockLines (folded : Bool) (indent : Nat) (parts : List (List Char)) (breaks : List Char) :
    (fuel : Nat) → Scan (List Char × List Char × List Char)
  | 0 => return (joined parts, [], breaks)
  | fuel + 1 => do
    let leadingText := (← peek 0) ≠ ' ' && (← peek 0) ≠ '\t'
    let line ← takeWhile fun c => ! isEnd c
    let parts := line :: breaks :: parts
    let lineEnd ← lineBreak
    let breaks ← blockBreaks indent [] (← bound)
    if ← atBlockLine indent then
      let c ← peek 0
      let joiner :=
        if folded && lineEnd = ['\n'] && leadingText && c ≠ ' ' && c ≠ '\t' then
          if breaks.isEmpty then [' '] else []
        else lineEnd
      blockLines folded indent (joiner :: parts) breaks fuel
    else return (joined parts, lineEnd, breaks)

def blockScalar (folded : Bool) : Scan Token := do
  forward 1
  let (chomping, increment) ← blockHead
  endOfLine
  let least := max 1 ((← get).indent + 1).toNat
  let (breaks, indent) ←
    match increment with
    | none => do
      let (breaks, column) ← blockIndentation [] 0 (← bound)
      pure (breaks, max least column)
    | some n => do
      let indent := least + n - 1
      let breaks ← blockBreaks indent [] (← bound)
      pure (breaks, indent)
  let (text, lineEnd, breaks) ←
    if ← atBlockLine indent then blockLines folded indent [] breaks (← bound)
    else pure ([], [], breaks)
  let text :=
    match chomping with
    | .strip => text
    | .clip => text ++ lineEnd
    | .keep => text ++ lineEnd ++ breaks
  return .scalar (Symbol.textOf text) false

/-! ## Quoted scalars -/

/-- The character that a letter stands for after a backslash. -/
def escape? (c : Char) : Option Char :=
  match c with
  | '0' => some '\x00'
  | 'a' => some '\x07'
  | 'b' => some '\x08'
  | 't' => some '\x09'
  | '\t' => some '\x09'
  | 'n' => some '\x0a'
  | 'v' => some '\x0b'
  | 'f' => some '\x0c'
  | 'r' => some '\x0d'
  | 'e' => some '\x1b'
  | ' ' => some ' '
  | '"' => some '"'
  | '\\' => some '\\'
  | '/' => some '/'
  | 'N' => some '\x85'
  | '_' => some '\xa0'
  | 'L' => some '\u2028'
  | 'P' => some '\u2029'
  | _ => none

/-- How many hexadecimal digits follow a letter after a backslash. -/
def escapeLength? (c : Char) : Option Nat :=
  if c = 'x' then some 2 else if c = 'u' then some 4 else if c = 'U' then some 8 else none

def hexNumber? (ds : List Char) : Option Nat :=
  ds.foldl (fun acc c =>
    acc.bind fun n =>
      if '0' ≤ c && c ≤ '9' then some (n * 16 + (c.toNat - 48))
      else if 'a' ≤ c && c ≤ 'f' then some (n * 16 + (c.toNat - 87))
      else if 'A' ≤ c && c ≤ 'F' then some (n * 16 + (c.toNat - 55))
      else none) (some 0)

def symbolOfNumber (n : Nat) : Scan Symbol :=
  if 0x7FFFFFFF < n then throw (.interrupted .characterOverflow)
  else if 0x10FFFF < n then throw (.interrupted .noSuchCharacter)
  else return .ofNumber n

/-- Pass empty lines within a quoted scalar; answer their breaks. -/
def quotedBreaks (breaks : List Char) : (fuel : Nat) → Scan (List Char)
  | 0 => return breaks
  | fuel + 1 => do
    if ← atAnyMark then fail
    let _ ← takeWhile fun c => c = ' ' || c = '\t'
    if isLineEnd (← peek 0) then
      let b ← lineBreak
      quotedBreaks (breaks ++ b) fuel
    else return breaks

/-- What follows a backslash. -/
def quotedEscape : Scan (List Char) := do
  forward 1
  let c ← peek 0
  match escape? c, escapeLength? c with
  | some x, _ => do
    forward 1
    return [x]
  | none, some length => do
    forward 1
    let ds := (← get).rest.take length
    match hexNumber? ds with
    | none => fail
    | some n =>
      if ds.length < length then fail
      let x ← symbolOfNumber n
      forward length
      return x.written
  | none, none =>
    if isLineEnd c then do
      let _ ← lineBreak
      quotedBreaks [] (← bound)
    else fail

/-- A character that a quoted scalar does not take as it stands. -/
def endsQuotedRun (c : Char) : Bool := c = '\'' || c = '"' || c = '\\' || isBlankOrEnd c

/-- The characters of a quoted scalar after `parts`, up to a blank, an end or the closing
    quote. -/
def quotedText (double : Bool) (parts : List (List Char)) :
    (fuel : Nat) → Scan (List (List Char))
  | 0 => return parts
  | fuel + 1 => do
    let run ← takeWhile fun c => ! endsQuotedRun c
    let parts := run.flatMap (fun c => Symbol.written (.char c)) :: parts
    let c ← peek 0
    if ! double && c = '\'' && (← peek 1) = '\'' then
      forward 2
      quotedText double (['\''] :: parts) fuel
    else if (double && c = '\'') || (! double && (c = '"' || c = '\\')) then
      forward 1
      quotedText double ([c] :: parts) fuel
    else if double && c = '\\' then
      let cs ← quotedEscape
      quotedText double (cs :: parts) fuel
    else return parts

/-- The blanks and breaks within a quoted scalar. A single break is a space. -/
def quotedSpaces : Scan (List Char) := do
  let blanks ← takeWhile fun c => c = ' ' || c = '\t'
  let c ← peek 0
  if c = endMark then fail
  else if isLineEnd c then
    let first ← lineBreak
    let breaks ← quotedBreaks [] (← bound)
    return (if first ≠ ['\n'] then first else if breaks.isEmpty then [' '] else []) ++ breaks
  else return blanks

/-- The text of a quoted scalar after `parts`, up to its closing quote. -/
def quotedBody (double : Bool) (quote : Char) (parts : List (List Char)) :
    (fuel : Nat) → Scan (List Char)
  | 0 => fail
  | fuel + 1 => do
    if (← peek 0) = quote then
      forward 1
      return joined parts
    else
      let spaces ← quotedSpaces
      quotedBody double quote (← quotedText double (spaces :: parts) (← bound)) fuel

def quotedScalar (double : Bool) : Scan Token := do
  let quote ← peek 0
  forward 1
  let parts ← quotedText double [] (← bound)
  let text ← quotedBody double quote parts (← bound)
  return .scalar (String.ofList text) false

/-! ## Unquoted scalars -/

/-- A character that structures flow collections. -/
def isFlowIndicator (c : Char) : Bool := c = ',' || c = '[' || c = ']' || c = '\x7b' || c = '\x7d'

/-- The length of the run of an unquoted scalar at the start of a text. -/
def plainRun (inFlow : Bool) : List Char → Nat
  | [] => 0
  | c :: rest =>
    let next := rest.headD endMark
    if isBlankOrEnd c || (c = ':' && (isBlankOrEnd next || (inFlow && isFlowIndicator next))) ||
        (inFlow && (c = '?' || isFlowIndicator c)) then 0
    else plainRun inFlow rest + 1

/-- Pass the lines between two runs of an unquoted scalar; none when a document ends there. -/
def plainBreaks (breaks : List Char) : (fuel : Nat) → Scan (Option (List Char))
  | 0 => return some breaks
  | fuel + 1 => do
    let c ← peek 0
    if c = ' ' then
      forward 1
      plainBreaks breaks fuel
    else if isLineEnd c then
      let b ← lineBreak
      if ← atAnyMark then return none
      plainBreaks (breaks ++ b) fuel
    else return some breaks

/-- The spaces and breaks after a run of an unquoted scalar; empty when the scalar ends. -/
def plainSpaces : Scan (List Char) := do
  let spaces ← takeWhile (· = ' ')
  if isLineEnd (← peek 0) then
    let first ← lineBreak
    setAllowKey true
    if ← atAnyMark then return []
    match ← plainBreaks [] (← bound) with
    | none => return []
    | some breaks =>
      return (if first ≠ ['\n'] then first else if breaks.isEmpty then [' '] else []) ++ breaks
  else return spaces

/-- The runs of an unquoted scalar after `parts`, which `spaces` separate from them. -/
def plainRuns (indent : Int) (parts : List (List Char)) (spaces : List Char) :
    (fuel : Nat) → Scan (List Char)
  | 0 => return joined parts
  | fuel + 1 => do
    let s ← get
    if s.rest.head? = some '#' then return joined parts
    let length := plainRun (0 < s.flowLevel) s.rest
    if length = 0 then return joined parts
    setAllowKey false
    let parts := s.rest.take length :: spaces :: parts
    forward length
    let spaces ← plainSpaces
    let s ← get
    if spaces.isEmpty || s.rest.head? = some '#' || (s.flowLevel = 0 && s.column < indent) then
      return joined parts
    plainRuns indent parts spaces fuel

def plainScalar : Scan Token := do
  let text ← plainRuns ((← get).indent + 1) [] [] (← bound)
  return .scalar (Symbol.textOf text) true

def startsPlain : Scan Bool := do
  let c ← peek 0
  let inFlow := 0 < (← get).flowLevel
  return (! isBlankOrEnd c && ! "-?:,[]\x7b\x7d#&*!|>'\"%@\x60".toList.contains c) ||
    (! isBlankOrEnd (← peek 1) && (c = '-' || (! inFlow && (c = '?' || c = ':'))))

/-! ## Tokens -/

def streamEnd : Scan Unit := do
  unwindTo (-1)
  removeKey
  modify fun s => { s with allowKey := false, possibleKeys := [] }
  emit .streamEnd

/-- A mark that closes all block collections. -/
def documentMark (t : Token) : Scan Unit := do
  unwindTo (-1)
  removeKey
  setAllowKey false
  forward 3
  emit t

def flowStart (t : Token) : Scan Unit := do
  saveKey
  modify fun s => { s with flowLevel := s.flowLevel + 1, allowKey := true }
  forward 1
  emit t

def flowEnd (t : Token) : Scan Unit := do
  removeKey
  modify fun s => { s with flowLevel := s.flowLevel - 1, allowKey := false }
  forward 1
  emit t

/-- A mark in a block that opens a collection where none is open. -/
def openBlock (t : Token) : Scan Unit := do
  if (← get).flowLevel = 0 then
    unless (← get).allowKey do fail
    if ← addIndent (← get).column then emit t

def blockEntry : Scan Unit := do
  openBlock .blockSequenceStart
  setAllowKey true
  removeKey
  forward 1
  emit .blockEntry

def keyMark : Scan Unit := do
  openBlock .blockMappingStart
  modify fun s => { s with allowKey := s.flowLevel = 0 }
  removeKey
  forward 1
  emit .key

/-- The mark of a value, which makes the possible key before it a key. -/
def valueMark : Scan Unit := do
  let s ← get
  match s.possibleKeys.lookup s.flowLevel with
  | some k =>
    set { s with possibleKeys := s.possibleKeys.filter fun p => p.1 ≠ s.flowLevel }
    insertToken k.tokenNumber .key
    if s.flowLevel = 0 then
      if ← addIndent k.column then insertToken k.tokenNumber .blockMappingStart
    setAllowKey false
  | none =>
    openBlock .blockMappingStart
    modify fun s => { s with allowKey := s.flowLevel = 0 }
    removeKey
  forward 1
  emit .value

/-- A token that may be a key, and after which none may start at once. -/
def keyed (scan : Scan Token) : Scan Unit := do
  saveKey
  setAllowKey false
  emit (← scan)

/-- Add the next tokens; false at the end of the text. -/
def next : Scan Bool := do
  let s ← get
  if s.index = 0 && s.rest.head? = some '\uFEFF' then forward 1
  toNextToken (← bound)
  dropStaleKeys
  unwindTo (← get).column
  let c ← peek 0
  let atLineStart := (← get).column = 0
  let inFlow := 0 < (← get).flowLevel
  let spaceNext := isBlankOrEnd (← peek 1)
  if c = endMark then
    streamEnd
    return false
  if c = '%' && atLineStart then
    unwindTo (-1)
    removeKey
    setAllowKey false
    emit (← directive)
  else if atLineStart && (← atMark '-') then documentMark .documentStart
  else if atLineStart && (← atMark '.') then documentMark .documentEnd
  else if c = '[' then flowStart .flowSequenceStart
  else if c = '\x7b' then flowStart .flowMappingStart
  else if c = ']' then flowEnd .flowSequenceEnd
  else if c = '\x7d' then flowEnd .flowMappingEnd
  else if c = ',' then
    setAllowKey true
    removeKey
    forward 1
    emit .flowEntry
  else if c = '-' && spaceNext then blockEntry
  else if c = '?' && (inFlow || spaceNext) then keyMark
  else if c = ':' && (inFlow || spaceNext) then valueMark
  else if c = '*' then keyed (Token.alias <$> anchorName)
  else if c = '&' then keyed (Token.anchor <$> anchorName)
  else if c = '!' then keyed tag
  else if (c = '|' || c = '>') && ! inFlow then
    setAllowKey true
    removeKey
    emit (← blockScalar (c = '>'))
  else if c = '\'' || c = '"' then keyed (quotedScalar (c = '"'))
  else if ← startsPlain then keyed plainScalar
  else fail
  return true

/-- Release the tokens before the first possible key. -/
def release : Scan Unit := do
  dropStaleKeys
  modify fun s =>
    let stop := s.possibleKeys.foldl (fun n p => min n p.2.tokenNumber)
      (s.releasedCount + s.held.size)
    let n := stop - s.releasedCount
    { s with
      released := (s.held.take n).foldl (fun before t => t :: before) s.released
      releasedCount := stop
      held := s.held.drop n }

/-- The tokens of the text up to its end or to a failure, where those held back are lost. -/
def all (s : Scanner) : (fuel : Nat) → List Token × Option Stop
  | 0 => (s.released.reverse, none)
  | fuel + 1 =>
    match (next <* release).run s with
    | .error stop => (s.released.reverse, some stop)
    | .ok (true, s) => all s fuel
    | .ok (false, s) => (s.released.reverse, none)

end Scan

/-- The tokens of a text, and why scanning stopped if it did not reach the end. -/
def tokens (cs : List Char) : List Token × Option Stop :=
  if cs.all Scan.isAllowed then
    let size := cs.length
    Scan.all { size, rest := cs } (size + 2)
  else ([], some .malformed)

end ProviderTypes.Yaml
