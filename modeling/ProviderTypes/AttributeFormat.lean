import ProviderTypes.Container.Basic
import ProviderTypes.FieldName
import ProviderTypes.OrderedMap
import ProviderTypes.Schema.Basic
/-!
# ProviderTypes.AttributeFormat

The formats of attributes. Three scalar tags have formats of their own; a set or list is a
sequence, a map has texts as keys. An element type that is no scalar tag is approximated by a
text. An attribute that the user may leave out, or that the provider computes, is optional.

Main definitions: `AttributeType.format`, `Attribute.field` and `attributeFields`.
-/

namespace ProviderTypes

def scalarFormat? (tag : String) : Option Format :=
  if tag = "string" then some .str
  else if tag = "bool" then some .bool
  else if tag = "number" then some (.int .w64 true)
  else none

/-- A tag whose format is a sequence. -/
def isSequenceTag (tag : String) : Bool := tag = "set" || tag = "list"

/-- A tag whose format is a map. -/
def isMapTag (tag : String) : Bool := tag = "map"

/-- An attribute whose type tag has no format. -/
structure UnsupportedType where
  tag : String
  /-- The attribute, where it is known. -/
  attributeName : Option String := none
  deriving DecidableEq, Repr

def UnsupportedType.message (e : UnsupportedType) : String :=
  "Unsupported attribute type '" ++ e.tag ++ "'" ++
    (e.attributeName.map fun name => " for attribute '" ++ name ++ "'").getD ""

/-! ## Types -/

/-- The format of the elements of a collection with these parameters. -/
def elementFormat (rest : List Json) : Format :=
  match rest.head? with
  | some (.string tag) => (scalarFormat? tag).getD .str
  | _ => .str

/-- The element type that a text stands in for. -/
def approximatedElement? (rest : List Json) : Option Json :=
  match rest.head? with
  | none => none
  | some .null => none
  | some (.string tag) => if (scalarFormat? tag).isSome then none else some (.string tag)
  | some v => some v

namespace AttributeType

def format : AttributeType → Except UnsupportedType Format
  | .primitive tag =>
    match scalarFormat? tag with
    | some f => .ok f
    | none =>
      if isSequenceTag tag then .ok (.seq .str)
      else if isMapTag tag then .ok (.map .str .str)
      else .error ⟨tag, none⟩
  | .tagged tag rest =>
    if isSequenceTag tag then .ok (.seq (elementFormat rest))
    else if isMapTag tag then .ok (.map .str (elementFormat rest))
    else .error ⟨tag, none⟩

/-- The element type of a collection that a text stands in for. -/
def approximated? : AttributeType → Option Json
  | .primitive _ => none
  | .tagged tag rest =>
    if isSequenceTag tag || isMapTag tag then approximatedElement? rest else none

end AttributeType

/-! ## Attributes -/

def Attribute.format (a : Attribute) : Except UnsupportedType Format :=
  (if a.optional || a.computed then Format.option else id) <$> a.type.format

def Attribute.field (rules : EscapeRules) (name : String) (a : Attribute) :
    Except UnsupportedType Field :=
  match a.format with
  | .error e => .error { e with attributeName := some name }
  | .ok value =>
    .ok {
      name := rules.escape name
      value
      metadata :=
        { sourceName := some name
          description := a.description
          descriptionKind := a.descriptionKind.map DescriptionKind.text
          required := a.required
          sensitive := a.sensitive
          deprecated := a.deprecated } }

/-- The fields of attributes in the order of the list, up to the first unsupported type. -/
def attributeFields (rules : EscapeRules) : Members Attribute → Except UnsupportedType (List Field)
  | [] => .ok []
  | (name, a) :: rest => do
    let field ← a.field rules name
    let others ← attributeFields rules rest
    return field :: others

/-- The element types that texts stand in for, up to the first unsupported type. -/
def approximations : Members Attribute → List Json
  | [] => []
  | (_, a) :: rest =>
    match a.type.format with
    | .ok _ => a.type.approximated?.toList ++ approximations rest
    | .error _ => []

/-- Members in the order of their names. -/
def Members.inNameOrder {α : Type} (m : Members α) : Members α := (OrderedMap.ofList m).entries

end ProviderTypes
