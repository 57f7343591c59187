/-!
# ProviderTypes.Files.Path

Paths as a user writes them, in a normal form: single slashes, and no parts that stand for the
directory they are in. Parts that stand for the directory above are kept, since what they lead
to depends on the file system.
-/

namespace ProviderTypes

/-- A path in normal form. -/
structure Path where
  /-- The slashes in front of an absolute path; empty for a relative one. -/
  root : String
  parts : List String
  deriving DecidableEq, Repr, Inhabited

namespace Path

/-- A text in parts between slashes. -/
def splitSlashes : List Char → List (List Char)
  | [] => [[]]
  | '/' :: cs => [] :: splitSlashes cs
  | c :: cs =>
    match splitSlashes cs with
    | [] => [[c]]
    | first :: others => (c :: first) :: others

/-- The root of a written path. Exactly two slashes are a root of their own. -/
def rootOf (cs : List Char) : String :=
  match cs with
  | '/' :: '/' :: '/' :: _ => "/"
  | '/' :: '/' :: _ => "//"
  | '/' :: _ => "/"
  | _ => ""

/-- The path that a text writes. -/
def ofText (text : String) : Path :=
  let cs := text.toList
  let parts := (splitSlashes cs).filter fun part => part ≠ [] && part ≠ ['.']
  ⟨rootOf cs, parts.map String.ofList⟩

/-- The path as messages show it. -/
def text (p : Path) : String :=
  if p.root = "" && p.parts.isEmpty then "." else p.root ++ "/".intercalate p.parts

def parent (p : Path) : Path := { p with parts := p.parts.dropLast }

end Path

end ProviderTypes
