import ProviderTypes.NameSet
/-!
# ProviderTypes.FieldName

Field names that meet a keyword of the target language. A keyword that can stand for itself in
raw form takes one escape, a path keyword another; all other names stay as they are. An escape
is a template in which the name replaces a placeholder.
-/

namespace ProviderTypes

/-- The text that a template holds in place of the name. -/
def placeholder : String := "\x7bname\x7d"

namespace Template

/-- The template with the name in place of every placeholder. -/
def fillChars (name : List Char) : List Char → List Char
  | '\x7b' :: 'n' :: 'a' :: 'm' :: 'e' :: '\x7d' :: rest => name ++ fillChars name rest
  | c :: rest => c :: fillChars name rest
  | [] => []

/-- How many placeholders a template holds. -/
def countChars : List Char → Nat
  | '\x7b' :: 'n' :: 'a' :: 'm' :: 'e' :: '\x7d' :: rest => countChars rest + 1
  | _ :: rest => countChars rest
  | [] => 0

/-- The template with the name in place of every placeholder. -/
def fill (template name : String) : String :=
  String.ofList (fillChars name.toList template.toList)

/-- How many placeholders a template holds. -/
def count (template : String) : Nat := countChars template.toList

end Template

/-- Which names are escaped and how. -/
structure EscapeRules where
  /-- Keywords that can be written in raw form. -/
  reservedWords : NameSet := .empty
  reservedWordEscape : String := "r#\x7bname\x7d"
  /-- Keywords that cannot. -/
  pathKeywords : NameSet := .empty
  pathKeywordEscape : String := "\x7bname\x7d_"
  deriving DecidableEq

/-- The field name for a name of the schema. A name in both tables is a path keyword. -/
def EscapeRules.escape (rules : EscapeRules) (name : String) : String :=
  if rules.pathKeywords.contains name then Template.fill rules.pathKeywordEscape name
  else if rules.reservedWords.contains name then Template.fill rules.reservedWordEscape name
  else name

end ProviderTypes
