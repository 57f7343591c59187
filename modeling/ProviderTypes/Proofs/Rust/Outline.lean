import ProviderTypes.Proofs.Rust.TypeTree
import ProviderTypes.Rust.Source

/-!
# ProviderTypes.Proofs.Rust.Outline

Sources as outlines.  An outline has the lines of a source with the types in them
as trees, so that what a definition mentions can be read off it.  The lines of
each definition are the texts of its outline (`text_outline`), and the types in an
outline are those of the entry's formats, one for each, in order
(`types_outline`).
-/

namespace ProviderTypes

/-! ## the formats of a container -/

def Shape.formats : Shape → List Format
  | .unit => []
  | .newtype f => [f]
  | .tuple fs => fs
  | .record r => r.fields.map Field.value

def Container.formats : Container → List Format
  | .unit => []
  | .newtype f => [f]
  | .record r => r.fields.map Field.value
  | .union u => u.variants.flatMap fun v => v.shape.formats

namespace Rust

/-! ## lines in parts -/

/-- A part of a line. -/
inductive Piece where
  | text (s : String)
  | type (t : TypeTree)

/-- A part as it is written. -/
def Piece.shown : Piece → String
  | .text s => s
  | .type t => t.text

/-- A line in parts. -/
abbrev Line := List Piece

namespace Line

def text (line : Line) : String := String.join (line.map Piece.shown)

def types : Line → List TypeTree
  | [] => []
  | .text _ :: rest => types rest
  | .type t :: rest => t :: types rest

/-- The line of this text, without types. -/
def plain (s : String) : Line := [.text s]

/-- The line one step further in. -/
def further (line : Line) : Line := .text "    " :: line

@[simp] theorem text_nil : text [] = "" := rfl

@[simp] theorem text_cons_text (s : String) (line : Line) :
    text (.text s :: line) = s ++ text line := by
  simp [text, Piece.shown]

@[simp] theorem text_cons_type (t : TypeTree) (line : Line) :
    text (.type t :: line) = t.text ++ text line := by
  simp [text, Piece.shown]

/-- The text of a line is that of its parts. -/
theorem text_append (line line' : Line) : text (line ++ line') = line.text ++ line'.text := by
  induction line with
  | nil => simp
  | cons piece line ih => cases piece <;> simp [ih, String.append_assoc]

@[simp] theorem text_plain (s : String) : (plain s).text = s := by simp [plain]

@[simp] theorem text_further (line : Line) : line.further.text = indent line.text := by
  simp [further, indent]

@[simp] theorem types_nil : types [] = [] := rfl

@[simp] theorem types_cons_text (s : String) (line : Line) :
    types (.text s :: line) = types line := rfl

@[simp] theorem types_cons_type (t : TypeTree) (line : Line) :
    types (.type t :: line) = t :: types line := rfl

/-- The types in a line are those in its parts. -/
@[simp] theorem types_append (line line' : Line) :
    types (line ++ line') = line.types ++ line'.types := by
  induction line with
  | nil => rfl
  | cons piece line ih => cases piece <;> simp [ih]

@[simp] theorem types_plain (s : String) : (plain s).types = [] := rfl

@[simp] theorem types_further (line : Line) : line.further.types = line.types := rfl

end Line

def typesOf (lines : List Line) : List TypeTree := lines.flatMap Line.types

@[simp] theorem typesOf_nil : typesOf [] = [] := rfl

@[simp] theorem typesOf_cons (line : Line) (lines : List Line) :
    typesOf (line :: lines) = line.types ++ typesOf lines := rfl

@[simp] theorem typesOf_append (lines lines' : List Line) :
    typesOf (lines ++ lines') = typesOf lines ++ typesOf lines' := List.flatMap_append

/-- The types in the lines of many things are those in the lines of each. -/
theorem typesOf_flatMap {α : Type} (l : List α) (g : α → List Line) :
    typesOf (l.flatMap g) = l.flatMap fun a => typesOf (g a) := List.flatMap_assoc

@[simp] theorem typesOf_map_plain (texts : List String) : typesOf (texts.map Line.plain) = [] := by
  simp [typesOf, List.flatMap_map]

@[simp] theorem typesOf_map_further (lines : List Line) :
    typesOf (lines.map Line.further) = typesOf lines := by
  simp [typesOf, List.flatMap_map]

/-! ## outlines -/

def fieldOutline (s : GeneratorSettings) (known : List String) (pub : String) (f : Field) :
    List Line :=
  (docLines s f ++ fieldRenameLines f ++ skipLines f.value).map Line.plain ++
    [[.text (pub ++ f.name ++ ": "), .type (tree (some known) f.value), .text ","]]

/-- Types with commas between them. -/
def separated (ts : List TypeTree) : Line := (ts.map Piece.type).intersperse (.text ", ")

def variantOutline (s : GeneratorSettings) (known : List String) (v : Variant) : List Line :=
  match v.shape with
  | .unit => [.plain (v.name ++ ",")]
  | .newtype f => [[.text (v.name ++ "("), .type (tree (some known) f), .text "),"]]
  | .tuple fs => [.text (v.name ++ "(") :: separated (fs.map (tree (some known))) ++ [.text "),"]]
  | .record r =>
    [.plain (v.name ++ " \x7b")] ++ (r.fields.flatMap (fieldOutline s known "")).map .further ++
      [.plain "\x7d,"]

/-- The outline of what follows the attributes of a definition. -/
def bodyOutline (s : GeneratorSettings) (known : List String) (name : String) (c : Container) :
    List Line :=
  let pub := visibility s
  match c with
  | .unit => [.plain (pub ++ "struct " ++ name ++ ";")]
  | .newtype f =>
    [[.text (pub ++ "struct " ++ name ++ "(" ++ pub), .type (tree (some known) f), .text ");"]]
  | .record r =>
    [.plain (pub ++ "struct " ++ name ++ " \x7b")] ++
      (r.fields.flatMap (fieldOutline s known pub)).map .further ++ [.plain "\x7d"]
  | .union u =>
    [.plain (pub ++ "enum " ++ name ++ " \x7b")] ++
      (u.variants.flatMap (variantOutline s known)).map .further ++ [.plain "\x7d"]

/-- The outline of the definition of an entry. -/
def outline (s : GeneratorSettings) (known : List String) (key : QualifiedName) (c : Container) :
    List Line :=
  (headLines s key c).map .plain ++ bodyOutline s known key.fullName c

/-- The outlines of the definitions of entries, where each adds its name to the known ones. -/
def outlines (s : GeneratorSettings) (known : List String) :
    List (QualifiedName × Container) → List (List Line)
  | [] => []
  | (key, c) :: rest => outline s known key c :: outlines s (key.fullName :: known) rest

variable {s : GeneratorSettings} {known : List String} {pub : String}

/-! ## the text of an outline -/

/-- The outline of a field is its text. -/
theorem text_fieldOutline (f : Field) :
    (fieldOutline s known pub f).map Line.text = fieldLines s known pub f := by
  simp [fieldOutline, fieldLines, Function.comp_def, text_tree, String.append_assoc]

/-- Types in a row are separated by commas. -/
theorem text_separated (ts : List TypeTree) :
    (separated ts).text = commaSeparated (ts.map TypeTree.text) := by
  unfold separated commaSeparated
  induction ts with
  | nil => rfl
  | cons t ts ih =>
      cases ts with
      | nil => simp
      | cons u us => simpa [String.append_assoc] using ih

theorem typeTexts_eq_map (fs : List Format) :
    typeTexts (some known) fs = (fs.map (tree (some known))).map TypeTree.text := by
  induction fs with
  | nil => rfl
  | cons f fs ih => rw [typeTexts, ih, List.map_cons, List.map_cons, text_tree]

/-- The outline of a variant is its text. -/
theorem text_variantOutline (v : Variant) :
    (variantOutline s known v).map Line.text = variantLines s known v := by
  unfold variantOutline variantLines
  cases v.shape with
  | unit => simp
  | newtype f => simp [text_tree, String.append_assoc]
  | tuple fs =>
      simp only [List.map_cons, List.map_nil, List.cons_append, Line.text_cons_text,
        Line.text_append, text_separated, ← typeTexts_eq_map]
      simp [String.append_assoc]
  | record r =>
      simp [List.map_flatMap, Function.comp_def, ← text_fieldOutline]

/-- The outline of a body is its text. -/
theorem text_bodyOutline (name : String) (c : Container) :
    (bodyOutline s known name c).map Line.text = bodyLines s known name c := by
  cases c with
  | unit => simp [bodyOutline, bodyLines]
  | newtype f => simp [bodyOutline, bodyLines, text_tree, String.append_assoc]
  | record r =>
      simp [bodyOutline, bodyLines, List.map_flatMap, Function.comp_def, ← text_fieldOutline]
  | union u =>
      simp [bodyOutline, bodyLines, List.map_flatMap, Function.comp_def, ← text_variantOutline]

/-- The lines of a definition are the texts of its outline. -/
theorem text_outline (key : QualifiedName) (c : Container) :
    (outline s known key c).map Line.text = definition s known key c := by
  simp [outline, definition, Function.comp_def, text_bodyOutline]

/-- The outlines of all entries are their definitions. -/
theorem text_outlines (es : List (QualifiedName × Container)) :
    (outlines s known es).map (List.map Line.text) = definitions s known es := by
  induction es generalizing known with
  | nil => rfl
  | cons e es ih =>
      obtain ⟨key, c⟩ := e
      rw [outlines, List.map_cons, text_outline, ih, definitions]

/-! ## the types in an outline -/

/-- The types in a row are these. -/
theorem types_separated (ts : List TypeTree) : (separated ts).types = ts := by
  unfold separated
  induction ts with
  | nil => rfl
  | cons t ts ih =>
      cases ts with
      | nil => rfl
      | cons u us => simpa using ih

/-- The types in the outlines of fields are those of the fields. -/
theorem types_fields (fields : List Field) :
    typesOf (fields.flatMap (fieldOutline s known pub)) =
      (fields.map Field.value).map (tree (some known)) := by
  induction fields with
  | nil => rfl
  | cons f fields ih => simp [fieldOutline, ih]

/-- The types in the outline of a variant are those of its formats. -/
theorem types_variantOutline (v : Variant) :
    typesOf (variantOutline s known v) = v.shape.formats.map (tree (some known)) := by
  unfold variantOutline Shape.formats
  cases v.shape with
  | unit => simp
  | newtype f => simp
  | tuple fs => simp [types_separated]
  | record r => simp [types_fields]

/-- The types in the outline of a definition are those of the formats of its container. -/
theorem types_outline (key : QualifiedName) (c : Container) :
    typesOf (outline s known key c) = c.formats.map (tree (some known)) := by
  rw [outline, typesOf_append, typesOf_map_plain, List.nil_append]
  unfold bodyOutline Container.formats
  cases c with
  | unit => simp
  | newtype f => simp
  | record r => simp [types_fields]
  | union u => simp [typesOf_flatMap, types_variantOutline, List.map_flatMap]

end Rust

end ProviderTypes
