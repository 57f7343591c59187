import ProviderTypes.Format.Basic
/-!
# ProviderTypes.Rust.Type

The Rust spelling of formats. A reference to a type that is not defined yet stands in a box, so
that a type which contains itself has a size; the elements of vectors and maps are on the heap
anyway and are never boxed.
-/

namespace ProviderTypes.Rust

/-- The spelling of a reference, boxed unless its name is known; without known names no
    reference is boxed. -/
def refText (known : Option (List String)) (name : String) : String :=
  match known with
  | none => name
  | some names => if name ∈ names then name else "Box<" ++ name ++ ">"

/-- The spelling of a tuple with these elements. -/
def tupleText : List String → String
  | [element] => "(" ++ element ++ ",)"
  | elements => "(" ++ ", ".intercalate elements ++ ")"

mutual
/-- The spelling of a format. -/
def typeText (known : Option (List String)) : Format → String
  | .unit => "()"
  | .bool => "bool"
  | .int width signed => (if signed then "i" else "u") ++ toString width.bits
  | .float width => "f" ++ toString width.bits
  | .char => "char"
  | .str => "String"
  | .bytes => "Bytes"
  | .option inner => "Option<" ++ typeText known inner ++ ">"
  | .seq element => "Vec<" ++ typeText none element ++ ">"
  | .map key value => "Map<" ++ typeText none key ++ ", " ++ typeText none value ++ ">"
  | .tuple elements => tupleText (typeTexts known elements)
  | .array element size _ => "[" ++ typeText known element ++ "; " ++ toString size ++ "]"
  | .ref name _ => refText known name
def typeTexts (known : Option (List String)) : List Format → List String
  | [] => []
  | f :: rest => typeText known f :: typeTexts known rest
end

end ProviderTypes.Rust
