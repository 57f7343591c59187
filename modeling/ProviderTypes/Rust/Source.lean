import ProviderTypes.Rust.Type
import ProviderTypes.Settings.Basic
import ProviderTypes.Text.Blank
import ProviderTypes.Text.Lines
/-!
# ProviderTypes.Rust.Source

The Rust source of a registry: a preamble, and one definition per entry in registry order. Each
of these is a block of lines that starts at the margin; blocks are separated by one blank line.

A definition depends on its entry, the settings, and the names known before it: those from
outside and those of the entries before.
-/

namespace ProviderTypes.Rust

/-- One step of indentation. -/
def indent (line : String) : String := "    " ++ line

/-- The names in a list of macros or imports. -/
def commaSeparated (names : List String) : String := ", ".intercalate names

/-- An attribute that gives a type or field its name in documents. -/
def renameLine (name : String) : String := "#[serde(rename = \"" ++ name ++ "\")]"

/-! ## Preamble -/

/-- The import of names that a module provides. Names without a module are in scope already. -/
def importLine? (modulePath : String) (names : List String) : Option String :=
  if modulePath = "" ∨ names = [] then none
  else some ("use " ++ modulePath ++ "::\x7b" ++ commaSeparated names ++ "\x7d;")

/-- The lines before the first definition. -/
def preamble (s : GeneratorSettings) : List String :=
  ["//! Serde bindings for module `" ++ s.moduleName ++ "`.",
    "#![allow(unused_imports, non_snake_case, non_camel_case_types, non_upper_case_globals)]"] ++
  (if "Map" ∈ s.externalNames then [] else ["use std::collections::BTreeMap as Map;"]) ++
  ["use serde::\x7bSerialize, Deserialize\x7d;"] ++
  (if "Bytes" ∈ s.externalNames then [] else ["use serde_bytes::ByteBuf as Bytes;"]) ++
  s.externalDefinitions.filterMap fun e => importLine? e.1 e.2

/-! ## Fields -/

/-- A description as lines of comment, without the blanks around it and at the ends of lines. -/
def commentLines (description : String) : List String :=
  (lines (trimBlank description.toList)).map fun line =>
    let text := trimBlankEnd line
    if text.isEmpty then "///" else "/// " ++ String.ofList text

/-- The comment of a field. -/
def docLines (s : GeneratorSettings) (f : Field) : List String :=
  if s.emitDocs then (f.metadata.description.map commentLines).getD [] else []

/-- Whether a field needs an attribute to keep the name of its schema. The mark of a raw
    identifier is no part of the name. -/
def needsRename (name source : String) : Bool :=
  source ≠ "" && name ≠ source && name ≠ "r#" ++ source

/-- The attribute that keeps the schema's name. -/
def fieldRenameLines (f : Field) : List String :=
  match f.metadata.sourceName with
  | some source => if needsRename f.name source then [renameLine source] else []
  | none => []

/-- The attribute that leaves an absent value out of documents. -/
def skipLines : Format → List String
  | .option _ => ["#[serde(skip_serializing_if = \"Option::is_none\")]"]
  | .str => ["#[serde(default, skip_serializing_if = \"String::is_empty\")]"]
  | _ => []

def fieldLines (s : GeneratorSettings) (known : List String) (visibility : String) (f : Field) :
    List String :=
  docLines s f ++ fieldRenameLines f ++ skipLines f.value ++
    [visibility ++ f.name ++ ": " ++ typeText (some known) f.value ++ ","]

/-! ## Definitions -/

/-- The lines of a variant; its fields are as public as the union. -/
def variantLines (s : GeneratorSettings) (known : List String) (v : Variant) : List String :=
  match v.shape with
  | .unit => [v.name ++ ","]
  | .newtype f => [v.name ++ "(" ++ typeText (some known) f ++ "),"]
  | .tuple fs => [v.name ++ "(" ++ commaSeparated (typeTexts (some known) fs) ++ "),"]
  | .record r =>
    [v.name ++ " \x7b"] ++ (r.fields.flatMap (fieldLines s known "")).map indent ++ ["\x7d,"]

/-- The macros that a container derives. Records have a default. -/
def derives (s : GeneratorSettings) (c : Container) : List String :=
  let macros := s.deriveMacros ++ ["Serialize", "Deserialize"]
  match c with
  | .record _ => if "Default" ∈ macros then macros else macros ++ ["Default"]
  | _ => macros

/-- The attributes of a definition. An entry in a namespace keeps its local name. -/
def headLines (s : GeneratorSettings) (key : QualifiedName) (c : Container) : List String :=
  ["#[derive(" ++ commaSeparated (derives s c) ++ ")]"] ++
    (match key.scope with
      | some scope => if scope = "" then [] else [renameLine key.name]
      | none => [])

/-- The mark of a public item, where the settings want it. -/
def visibility (s : GeneratorSettings) : String := if s.trackVisibility then "pub " else ""

/-- The lines after the attributes of a definition. -/
def bodyLines (s : GeneratorSettings) (known : List String) (name : String) (c : Container) :
    List String :=
  let pub := visibility s
  match c with
  | .unit => [pub ++ "struct " ++ name ++ ";"]
  | .newtype f => [pub ++ "struct " ++ name ++ "(" ++ pub ++ typeText (some known) f ++ ");"]
  | .record r =>
    [pub ++ "struct " ++ name ++ " \x7b"] ++
      (r.fields.flatMap (fieldLines s known pub)).map indent ++ ["\x7d"]
  | .union u =>
    [pub ++ "enum " ++ name ++ " \x7b"] ++
      (u.variants.flatMap (variantLines s known)).map indent ++ ["\x7d"]

def definition (s : GeneratorSettings) (known : List String) (key : QualifiedName)
    (c : Container) : List String :=
  headLines s key c ++ bodyLines s known key.fullName c

/-- The definitions of entries, where each adds its name to the known ones. -/
def definitions (s : GeneratorSettings) (known : List String) :
    List (QualifiedName × Container) → List (List String)
  | [] => []
  | (key, c) :: rest => definition s known key c :: definitions s (key.fullName :: known) rest

/-- Lines as one text, each but the last ended by a line feed. -/
def joinLines (ls : List String) : String := "\n".intercalate ls

def blocks (s : GeneratorSettings) (r : Registry) : List (List String) :=
  preamble s :: definitions s s.externalNames r.items

/-- The source of a registry; nothing is written when a reference is unresolved. -/
def source (s : GeneratorSettings) (r : Registry) : Except Unresolved String :=
  match r.validateReferences s.externalNames with
  | .error e => .error e
  | .ok () => .ok ("\n\n".intercalate ((blocks s r).map joinLines) ++ "\n")

end ProviderTypes.Rust
