import ProviderTypes.Yaml.Plain
import ProviderTypes.Yaml.Scalar
/-!
# ProviderTypes.Yaml.Writer

Writing plain data as a YAML document in block style: two columns per level, sequences in
mappings at the level of their key, empty collections in brackets. Texts that pass the width of
a line are folded at single spaces. A key that is no short text on one line is marked, and its
value stands on a line of its own.
-/

namespace ProviderTypes.Yaml

/-- Where the writer stands: the text so far and what its last line looks like. -/
structure Cursor where
  text : String := ""
  /-- The length of the last line. -/
  column : Nat := 0
  /-- Whether the last line ends in a place where a token may start. -/
  spaced : Bool := true
  /-- Whether the last line holds nothing but indentation and marks. -/
  indented : Bool := true

namespace Cursor

/-- The greatest length of a line before it is folded. -/
def width : Nat := 80

def put (cs : List Char) (k : Cursor) : Cursor :=
  { k with text := k.text ++ String.ofList cs, column := k.column + cs.length }

def newLine (k : Cursor) : Cursor :=
  { text := k.text.push '\n', column := 0, spaced := true, indented := true }

/-- Go to a column, on a new line unless the last one holds indentation only. -/
def toColumn (column : Nat) (k : Cursor) : Cursor :=
  let k :=
    if ! k.indented || column < k.column || (k.column = column && ! k.spaced) then k.newLine else k
  if k.column < column then
    { k.put (List.replicate (column - k.column) ' ') with spaced := true }
  else k

/-- Write a mark, set off by a space where the mark needs one. -/
def mark (m : String) (needsSpace : Bool) (keepsIndentation : Bool) (k : Cursor) : Cursor :=
  let cs := if k.spaced || ! needsSpace then m.toList else ' ' :: m.toList
  { k.put cs with spaced := false, indented := k.indented && keepsIndentation }

/-- The last line holds a part of a scalar. -/
def inScalar (k : Cursor) : Cursor := { k with spaced := false, indented := false }

/-! ## Scalars -/

/-- Runs of characters that agree on a property, with the property. -/
def runs (p : Char → Bool) : List Char → List (Bool × List Char)
  | [] => []
  | c :: cs =>
    match runs p cs with
    | [] => [(p c, [c])]
    | (b, run) :: rest => if p c = b then (b, c :: run) :: rest else (p c, [c]) :: (b, run) :: rest

/-- Write the words of an unquoted scalar; a single space beyond the width becomes a new
    line. -/
def putWords (indent : Nat) (fold : Bool) (k : Cursor) : List (Bool × List Char) → Cursor
  | [] => k
  | (isSpace, run) :: rest =>
    let k :=
      if isSpace && run.length = 1 && width < k.column && fold then (k.toColumn indent).inScalar
      else k.put run
    putWords indent fold k rest

def putPlain (indent : Nat) (fold : Bool) (s : String) (k : Cursor) : Cursor :=
  let k := if k.spaced then k else k.put [' ']
  putWords indent fold k.inScalar (runs (· = ' ') s.toList)

/-- The kinds of runs within single quotes. -/
inductive RunKind where
  | word
  | space
  | lineBreak
  deriving DecidableEq, Repr

/-- The kind of a character within single quotes. -/
def runKind (c : Char) : RunKind :=
  if c = ' ' then .space else if isBreak c then .lineBreak else .word

/-- Runs of characters of one kind. -/
def kindRuns : List Char → List (RunKind × List Char)
  | [] => []
  | c :: cs =>
    match kindRuns cs with
    | [] => [(runKind c, [c])]
    | (k, run) :: rest =>
      if runKind c = k then (k, c :: run) :: rest else (runKind c, [c]) :: (k, run) :: rest

/-- Write the runs of a text in single quotes. Quotes are doubled, a line feed takes an empty
    line, and a single space beyond the width that is neither first nor last becomes a new
    line. -/
def putQuotedRuns (indent : Nat) (fold : Bool) (first : Bool) (k : Cursor) :
    List (RunKind × List Char) → Cursor
  | [] => k
  | (kind, run) :: rest =>
    let k :=
      match kind with
      | .word => k.put (run.flatMap fun c => if c = '\'' then ['\'', '\''] else [c])
      | .space =>
        if run.length = 1 && width < k.column && fold && ! first && ! rest.isEmpty then
          k.toColumn indent
        else k.put run
      | .lineBreak => (run.foldl (fun k _ => k.newLine) k.newLine).toColumn indent
    putQuotedRuns indent fold false k rest

def putSingleQuoted (indent : Nat) (fold : Bool) (s : String) (k : Cursor) : Cursor :=
  let k := k.mark "'" true false
  (putQuotedRuns indent fold true k (kindRuns s.toList)).mark "'" false false

/-- Break a line within double quotes; a space that would start the next line is escaped. -/
def foldEscaped (indent : Nat) (next : Option Symbol) (k : Cursor) : Cursor :=
  let k := ((k.put ['\\']).toColumn indent).inScalar
  if next = some (.char ' ') then k.put ['\\'] else k

/-- Write the symbols of a text in double quotes, of which `pending` are held back. Beyond the
    width the line is broken before a space or next to an escape. -/
def putEscaped (indent : Nat) (fold : Bool) (first : Bool) (pending : List Char) (k : Cursor) :
    List Symbol → Cursor
  | [] => k.put pending
  | s :: rest =>
    let mayFold := fold && ! first && ! rest.isEmpty
    match verbatim? s with
    | some c =>
      if mayFold && (c = ' ' || pending.isEmpty) && width < k.column + pending.length then
        putEscaped indent fold false [c] (foldEscaped indent (some s) (k.put pending)) rest
      else putEscaped indent fold false (pending ++ [c]) k rest
    | none =>
      let k := (k.put pending).put (escapeSymbol s)
      let k := if mayFold && width + 1 < k.column then foldEscaped indent rest.head? k else k
      putEscaped indent fold false [] k rest

def putDoubleQuoted (indent : Nat) (fold : Bool) (s : String) (k : Cursor) : Cursor :=
  let k := k.mark "\"" true false
  (putEscaped indent fold true [] k (Symbol.symbols s.toList)).mark "\"" false false

/-- Write a scalar; a key with its value on one line is not folded. -/
def putScalar (indent : Nat) (simpleKey : Bool) (s : Scalar) (k : Cursor) : Cursor :=
  match s with
  | .int n => putPlain indent (! simpleKey) (toString n) k
  | .text s =>
    match styleOf simpleKey s with
    | .plain => putPlain indent (! simpleKey) s k
    | .singleQuoted => putSingleQuoted indent (! simpleKey) s k
    | .doubleQuoted => putDoubleQuoted indent (! simpleKey) s k

/-! ## Collections -/

/-- Whether a key stands on one line with its value: it is not empty, has no line breaks, and is
    made of fewer than 123 symbols. -/
def isSimpleKey : Scalar → Bool
  | .int n => (toString n).length < 123
  | .text s => s ≠ "" && ! isMultiline s.toList && (Symbol.symbols s.toList).length < 123

/-- The column of the parts of a node in a node at `indent`; nothing stands for the document. -/
def deeper (indent : Option Nat) : Nat := (indent.map (· + 2)).getD 0

/-- The column of the further lines of a scalar in a node at `indent`. -/
def scalarColumn (indent : Option Nat) : Nat := (indent.map (· + 2)).getD 2

mutual
/-- Write a node in a node at `indent`, that is a mapping if `inMapping` holds. -/
def putNode (indent : Option Nat) (inMapping : Bool) (k : Cursor) : Plain → Cursor
  | .scalar s => putScalar (scalarColumn indent) false s k
  | .seq [] => (k.mark "[" true false).mark "]" false false
  | .map [] => (k.mark "\x7b" true false).mark "\x7d" false false
  | .seq (item :: items) =>
    let column := if inMapping && ! k.indented then indent.getD 0 else deeper indent
    putItems column k (item :: items)
  | .map (entry :: entries) => putEntries (deeper indent) k (entry :: entries)
def putItems (column : Nat) (k : Cursor) : List Plain → Cursor
  | [] => k
  | item :: rest =>
    let k := (k.toColumn column).mark "-" true true
    putItems column (putNode (some column) false k item) rest
def putEntries (column : Nat) (k : Cursor) : List (Scalar × Plain) → Cursor
  | [] => k
  | (key, value) :: rest =>
    let k := k.toColumn column
    let k :=
      if isSimpleKey key then (putScalar (column + 2) true key k).mark ":" false false
      else
        let k := putScalar (column + 2) false key (k.mark "?" true true)
        (k.toColumn column).mark ":" true true
    putEntries column (putNode (some column) true k value) rest
end

end Cursor

/-- The document of plain data. -/
def write (p : Plain) : String := ((Cursor.putNode none false {} p).toColumn 0).text

end ProviderTypes.Yaml
