import ProviderTypes.Json.Reader
import ProviderTypes.Schema.Basic
/-!
# ProviderTypes.Schema.Reader

Reading a schema from a JSON value. Members are visited in a fixed order and, where they carry
names of the schema, in document order; the first violation is the answer. Members that the
reader does not know do not count, and an absent member reads as null, except an attribute's
type, which has to be there.
-/

namespace ProviderTypes.Schema

/-- What is wrong with a part of a document. -/
inductive Fault where
  | notObject
  | emptyName
  | notString
  | notInteger
  | negative
  | notBoolean
  | notDescriptionKind
  | absent
  | notType
  deriving DecidableEq, Repr

/-- What the part at fault must be. -/
def Fault.demand : Fault → String
  | .notObject => "must be an object."
  | .emptyName => "keys must be non-empty strings."
  | .notString => "must be a string."
  | .notInteger => "must be an integer."
  | .negative => "must not be negative."
  | .notBoolean => "must be a boolean."
  | .notDescriptionKind => "must be 'plain' or 'markdown'."
  | .absent => "is required."
  | .notType => "must be a type tag string or a non-empty tagged array."

/-- A part of a document, named by its path, that is not as it must be. -/
structure Violation where
  path : String
  fault : Fault
  deriving DecidableEq, Repr

def Violation.message (v : Violation) : String := v.path ++ " " ++ v.fault.demand

def memberPath (path name : String) : String := path ++ "." ++ name

/-! ## Simple members -/

def readObject (path : String) : Json → Except Violation (Members Json)
  | .object members => .ok members
  | _ => .error ⟨path, .notObject⟩

/-- A name of the schema is not empty. -/
def checkName (path name : String) : Except Violation Unit :=
  if name = "" then .error ⟨path, .emptyName⟩ else .ok ()

def readString (path : String) : Json → Except Violation String
  | .string s => .ok s
  | _ => .error ⟨path, .notString⟩

/-- A text or nothing. -/
def readString? (path : String) : Json → Except Violation (Option String)
  | .null => .ok none
  | v => some <$> readString path v

def readInt (path : String) : Json → Except Violation Int
  | .int n => .ok n
  | _ => .error ⟨path, .notInteger⟩

/-- A count or nothing. -/
def readCount? (path : String) : Json → Except Violation (Option Nat)
  | .null => .ok none
  | .int (.ofNat n) => .ok (some n)
  | .int (.negSucc _) => .error ⟨path, .negative⟩
  | _ => .error ⟨path, .notInteger⟩

/-- A flag, unset when there is nothing. -/
def readFlag (path : String) : Json → Except Violation Bool
  | .null => .ok false
  | .bool b => .ok b
  | _ => .error ⟨path, .notBoolean⟩

/-- A kind of description or nothing. -/
def readDescriptionKind? (path : String) : Json → Except Violation (Option DescriptionKind)
  | .null => .ok none
  | .string s =>
    if s = "plain" then .ok (some .plain)
    else if s = "markdown" then .ok (some .markdown)
    else .error ⟨path, .notDescriptionKind⟩
  | _ => .error ⟨path, .notDescriptionKind⟩

/-- A type: a tag, or an array that starts with a tag. -/
def readType (path : String) : Json → Except Violation AttributeType
  | .string tag => .ok (.primitive tag)
  | .array (.string tag :: rest) => .ok (.tagged tag rest)
  | _ => .error ⟨path, .notType⟩

/-! ## Attributes -/

def readAttribute (path : String) (v : Json) : Except Violation Attribute := do
  let members ← readObject path v
  let at_ (name : String) := memberPath path name
  let type ←
    match members.get? "type" with
    | some t => readType (at_ "type") t
    | none => .error ⟨at_ "type", .absent⟩
  let description ← readString? (at_ "description") (Json.member members "description")
  let required ← readFlag (at_ "required") (Json.member members "required")
  let optional ← readFlag (at_ "optional") (Json.member members "optional")
  let computed ← readFlag (at_ "computed") (Json.member members "computed")
  let sensitive ← readFlag (at_ "sensitive") (Json.member members "sensitive")
  let descriptionKind ←
    readDescriptionKind? (at_ "description_kind") (Json.member members "description_kind")
  let deprecated ← readFlag (at_ "deprecated") (Json.member members "deprecated")
  return { type, description, required, optional, computed, sensitive, descriptionKind, deprecated }

/-- The named attributes of an object, in document order. -/
def readAttributeList (path : String) : List (String × Json) → Except Violation (Members Attribute)
  | [] => .ok []
  | (name, v) :: rest => do
    checkName path name
    let first ← readAttribute (memberPath path name) v
    let others ← readAttributeList path rest
    return (name, first) :: others

/-- The attributes of a block, none when there is nothing. -/
def readAttributes (path : String) (v : Json) : Except Violation (Members Attribute) :=
  if v.isNull then .ok []
  else do
    let members ← readObject path v
    readAttributeList path members

/-! ## Blocks -/

/-- How a nested block may occur. -/
def readNesting (path : String) (members : Members Json) : Except Violation Nesting := do
  let mode ← readString? (memberPath path "nesting_mode") (Json.member members "nesting_mode")
  let minItems ← readCount? (memberPath path "min_items") (Json.member members "min_items")
  let maxItems ← readCount? (memberPath path "max_items") (Json.member members "max_items")
  return { mode, minItems, maxItems }

mutual
def readBlock (path : String) : Json → Except Violation Block
  | .object members => do
    let attributes ←
      readAttributes (memberPath path "attributes") (Json.member members "attributes")
    let blockTypes ← readBlockTypesIn (memberPath path "block_types") members
    return .mk attributes blockTypes
  | _ => .error ⟨path, .notObject⟩

/-- The nested block types that the first member `block_types` gives. -/
def readBlockTypesIn (path : String) :
    List (String × Json) → Except Violation (List (String × Nesting × Block))
  | [] => .ok []
  | (name, v) :: rest =>
    if name = "block_types" then readBlockTypes path v else readBlockTypesIn path rest

/-- The nested block types of a block, none when there is nothing. -/
def readBlockTypes (path : String) : Json → Except Violation (List (String × Nesting × Block))
  | .null => .ok []
  | .object members => readBlockTypeList path members
  | _ => .error ⟨path, .notObject⟩

/-- The named block types of an object, in document order. -/
def readBlockTypeList (path : String) :
    List (String × Json) → Except Violation (List (String × Nesting × Block))
  | [] => .ok []
  | (name, v) :: rest => do
    checkName path name
    let nested ← readNested (memberPath path name) v
    let others ← readBlockTypeList path rest
    return (name, nested) :: others

def readNested (path : String) : Json → Except Violation (Nesting × Block)
  | .object members => do
    let block ← readBlockIn (memberPath path "block") members
    let nesting ← readNesting path members
    return (nesting, block)
  | _ => .error ⟨path, .notObject⟩

/-- The block that the first member `block` gives. -/
def readBlockIn (path : String) : List (String × Json) → Except Violation Block
  | [] => .error ⟨path, .notObject⟩
  | (name, v) :: rest => if name = "block" then readBlock path v else readBlockIn path rest
end

/-! ## Documents -/

def readItem (path : String) (v : Json) : Except Violation SchemaItem := do
  let members ← readObject path v
  let version ← readInt (memberPath path "version") (Json.member members "version")
  let block ← readBlock (memberPath path "block") (Json.member members "block")
  return { version, block }

/-- The named items of an object, in document order. -/
def readItemList (path : String) : List (String × Json) → Except Violation (Members SchemaItem)
  | [] => .ok []
  | (name, v) :: rest => do
    checkName path name
    let item ← readItem (memberPath path name) v
    let others ← readItemList path rest
    return (name, item) :: others

def readItems (path : String) (v : Json) : Except Violation (Members SchemaItem) :=
  if v.isNull then .ok []
  else do
    let members ← readObject path v
    readItemList path members

def readProvider (path : String) (v : Json) : Except Violation ProviderSchema := do
  let members ← readObject path v
  let provider ← readItem (memberPath path "provider") (Json.member members "provider")
  let resources ←
    readItems (memberPath path "resource_schemas") (Json.member members "resource_schemas")
  let dataSources ←
    readItems (memberPath path "data_source_schemas") (Json.member members "data_source_schemas")
  return { provider, resources, dataSources }

/-- The named providers of an object, in document order. -/
def readProviderList (path : String) :
    List (String × Json) → Except Violation (Members ProviderSchema)
  | [] => .ok []
  | (name, v) :: rest => do
    checkName path name
    let provider ← readProvider (memberPath path name) v
    let others ← readProviderList path rest
    return (name, provider) :: others

/-- Read a schema from a JSON value. -/
def ofJson (v : Json) : Except Violation Schema := do
  let members ← readObject "$" v
  let formatVersion ← readString "$.format_version" (Json.member members "format_version")
  let providers ← readObject "$.provider_schemas" (Json.member members "provider_schemas")
  let providers ← readProviderList "$.provider_schemas" providers
  return { formatVersion, providers }

/-- Why a text gives no schema. -/
inductive TextError where
  | unreadable (e : Json.ReadError)
  | violation (v : Violation)
  deriving DecidableEq, Repr

/-- Read a schema from a JSON text. -/
def ofText (text : String) : Except TextError Schema :=
  match Json.read text with
  | .error e => .error (.unreadable e)
  | .ok v => (ofJson v).mapError .violation

/-! ## Members of blocks by look-up -/

/-- Reading block types among members is reading the member of this name. -/
theorem readBlockTypesIn_eq (path : String) (members : Members Json) :
    readBlockTypesIn path members = readBlockTypes path (Json.member members "block_types") := by
  induction members with
  | nil => simp [readBlockTypesIn, Json.member, readBlockTypes]
  | cons p rest ih =>
    obtain ⟨name, v⟩ := p
    by_cases h : name = "block_types"
    · simp [readBlockTypesIn, Json.member, Members.get?_cons, h]
    · simp only [Json.member, Members.get?_cons, Ne.symm h, readBlockTypesIn, if_neg h, if_false]
      exact ih

/-- Reading a block among members is reading the member of this name. -/
theorem readBlockIn_eq (path : String) (members : Members Json) :
    readBlockIn path members = readBlock path (Json.member members "block") := by
  induction members with
  | nil => simp [readBlockIn, Json.member, readBlock]
  | cons p rest ih =>
    obtain ⟨name, v⟩ := p
    by_cases h : name = "block"
    · simp [readBlockIn, Json.member, Members.get?_cons, h]
    · simp only [Json.member, Members.get?_cons, Ne.symm h, readBlockIn, if_neg h, if_false]
      exact ih

end ProviderTypes.Schema
