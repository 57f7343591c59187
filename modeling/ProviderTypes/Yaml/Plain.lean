import ProviderTypes.Registry.Basic
/-!
# ProviderTypes.Yaml.Plain

The plain data of a registry: texts, whole numbers, sequences and mappings, as a reader of the
dump sees them. Entries stand in registry order under their full names; metadata is left out.
-/

namespace ProviderTypes

/-- A scalar of plain data. -/
inductive Scalar where
  | text (s : String)
  | int (n : Int)
  deriving DecidableEq, Repr

/-- Plain data; the entries of a mapping are in order. -/
inductive Plain where
  | scalar (s : Scalar)
  | seq (items : List Plain)
  | map (entries : List (Scalar × Plain))
  deriving Repr

namespace Plain

def text (s : String) : Plain := .scalar (.text s)

/-- A mapping with a single entry under a text. -/
def single (key : String) (value : Plain) : Plain := .map [(.text key, value)]

end Plain

mutual
def Format.plain : Format → Plain
  | .unit => .text "UNIT"
  | .bool => .text "BOOL"
  | .int width signed => .text ((if signed then "I" else "U") ++ toString width.bits)
  | .float width => .text ("F" ++ toString width.bits)
  | .char => .text "CHAR"
  | .str => .text "STR"
  | .bytes => .text "BYTES"
  | .option inner => .single "OPTION" inner.plain
  | .seq element => .single "SEQ" element.plain
  | .map key value =>
    .single "MAP" (.map [(.text "KEY", key.plain), (.text "VALUE", value.plain)])
  | .tuple elements => .single "TUPLE" (.seq (Format.plainAll elements))
  | .array element size _ =>
    .single "TUPLEARRAY"
      (.map [(.text "CONTENT", element.plain), (.text "SIZE", .scalar (.int size))])
  | .ref name _ => .single "TYPENAME" (.text name)
def Format.plainAll : List Format → List Plain
  | [] => []
  | f :: rest => f.plain :: Format.plainAll rest
end

/-- The data of a record: one mapping per field. -/
def Record.plain (r : Record) : Plain :=
  .seq (r.fields.map fun f => .single f.name f.value.plain)

def Shape.plain : Shape → Plain
  | .unit => .text "UNIT"
  | .newtype f => .single "NEWTYPE" f.plain
  | .tuple fs => .single "TUPLE" (.seq (Format.plainAll fs))
  | .record r => .single "STRUCT" r.plain

/-- The data of variants: one entry under each discriminant. -/
def Union.plainFrom (start : Nat) : List Variant → List (Scalar × Plain)
  | [] => []
  | v :: rest => (.int start, .single v.name v.shape.plain) :: Union.plainFrom (start + 1) rest

def Container.plain : Container → Plain
  | .unit => .text "UNITSTRUCT"
  | .newtype f => .single "NEWTYPESTRUCT" f.plain
  | .record r => .single "STRUCT" r.plain
  | .union u => .single "ENUM" (.map (Union.plainFrom 0 u.variants))

def Registry.plain (r : Registry) : Plain :=
  .map (r.items.map fun e => (.text e.1.fullName, e.2.plain))

end ProviderTypes
