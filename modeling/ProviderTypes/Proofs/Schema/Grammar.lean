import ProviderTypes.Schema.Reader
import ProviderTypes.Proofs.Members.NameOrder

/-!
# ProviderTypes.Proofs.Schema.Grammar

The grammar of schema documents.  A document is made of six kinds of objects
(`Part`); `Part.members` lists what each of them may hold, in the order in which it
is checked.

`Content.violations` checks a value against the grammar.  It goes on after a
violation and lists all of them, but does not look into a value that is not the
object it must be.  `Schema.reading` is the schema that a document without
violations stands for, member by member.
-/

namespace ProviderTypes

namespace Json

/-- The member of a value, null where there is none. -/
def field (name : String) : Json → Json
  | .object members => member members name
  | _ => .null

/-- The members of a value, none where it is no object. -/
def entries : Json → Members Json
  | .object members => members
  | _ => []

end Json

namespace Schema

/-! ## values -/

/-- What is wrong with a value that must be a text. -/
def textFault? : Json → Option Fault
  | .string _ => none
  | _ => some .notString

def integerFault? : Json → Option Fault
  | .int _ => none
  | _ => some .notInteger

def countFault? : Json → Option Fault
  | .int n => if n < 0 then some .negative else none
  | _ => some .notInteger

def flagFault? : Json → Option Fault
  | .bool _ => none
  | _ => some .notBoolean

/-- What is wrong with a value that must name a kind of description. -/
def descriptionKindFault? (v : Json) : Option Fault :=
  if v = .string "plain" ∨ v = .string "markdown" then none else some .notDescriptionKind

def typeFault? : Json → Option Fault
  | .string _ => none
  | .array (.string _ :: _) => none
  | _ => some .notType

/-- A value that has to be there: where there is none, null is checked. -/
def required (fault? : Json → Option Fault) (v : Option Json) : Option Fault :=
  fault? (v.getD .null)

/-- A value that may be absent or null. -/
def optional (fault? : Json → Option Fault) (v : Option Json) : Option Fault :=
  if v.getD .null = .null then none else fault? (v.getD .null)

/-- A value whose absence is a fault of its own. -/
def present (fault? : Json → Option Fault) : Option Json → Option Fault
  | none => some .absent
  | some v => fault? v

/-! ## the grammar -/

/-- The kinds of objects in a document. -/
inductive Part where
  | document
  | provider
  | item
  | block
  | nestedBlock
  | attribute
  deriving DecidableEq, Repr

/-- What a member must hold: a value with some faults, a part, or parts under names of the schema,
which may be missing unless they are needed. -/
inductive Content where
  | value (fault? : Option Json → Option Fault)
  | part (p : Part)
  | parts (p : Part) (needed : Bool)

/-- The members of a part, in the order in which they are checked. -/
def Part.members : Part → Members Content
  | .document =>
    [("format_version", .value (required textFault?)), ("provider_schemas", .parts .provider true)]
  | .provider =>
    [("provider", .part .item), ("resource_schemas", .parts .item false),
      ("data_source_schemas", .parts .item false)]
  | .item => [("version", .value (required integerFault?)), ("block", .part .block)]
  | .block => [("attributes", .parts .attribute false), ("block_types", .parts .nestedBlock false)]
  | .nestedBlock =>
    [("block", .part .block), ("nesting_mode", .value (optional textFault?)),
      ("min_items", .value (optional countFault?)), ("max_items", .value (optional countFault?))]
  | .attribute =>
    [("type", .value (present typeFault?)), ("description", .value (optional textFault?)),
      ("required", .value (optional flagFault?)), ("optional", .value (optional flagFault?)),
      ("computed", .value (optional flagFault?)), ("sensitive", .value (optional flagFault?)),
      ("description_kind", .value (optional descriptionKindFault?)),
      ("deprecated", .value (optional flagFault?))]

/-! ## sizes -/

/-- A member is smaller than its object. -/
theorem sizeOf_lt_of_mem {members : Members Json} {m : String × Json} (h : m ∈ members) :
    sizeOf m.2 < sizeOf (Json.object members) := by
  have hmembers : sizeOf m < sizeOf members := List.sizeOf_lt_of_mem h
  have hm : sizeOf m = 1 + sizeOf m.1 + sizeOf m.2 := rfl
  rw [Json.object.sizeOf_spec]
  omega

theorem sizeOf_get?_lt (members : Members Json) (name : String) :
    sizeOf (members.get? name) < sizeOf (some (Json.object members)) := by
  cases hget : members.get? name with
  | none =>
      rw [Option.none.sizeOf_spec, Option.some.sizeOf_spec, Json.object.sizeOf_spec]
      omega
  | some v =>
      have hv : sizeOf v < sizeOf (Json.object members) :=
        sizeOf_lt_of_mem (Members.mem_of_get? hget)
      rw [Option.some.sizeOf_spec, Option.some.sizeOf_spec]
      omega

/-- A member that is looked up is not larger than the value. -/
theorem sizeOf_field_le (name : String) (v : Json) : sizeOf (v.field name) ≤ sizeOf v := by
  cases v with
  | object members =>
      have hget := sizeOf_get?_lt members name
      rw [Json.field, Json.member]
      cases h : Members.get? members name with
      | none =>
          rw [Option.getD_none, Json.null.sizeOf_spec, Json.object.sizeOf_spec]
          omega
      | some w =>
          rw [h, Option.some.sizeOf_spec, Option.some.sizeOf_spec] at hget
          rw [Option.getD_some]
          omega
  | _ => simp [Json.field]

theorem sizeOf_entries_lt {v : Json} {m : String × Json} (h : m ∈ v.entries) :
    sizeOf m.2 < sizeOf v := by
  cases v with
  | object members => exact sizeOf_lt_of_mem h
  | _ => exact absurd h List.not_mem_nil

/-- A nested block is smaller than the block around it. -/
theorem sizeOf_block_lt {v : Json} {m : String × Json} (h : m ∈ (v.field "block_types").entries) :
    sizeOf (m.2.field "block") < sizeOf v :=
  calc sizeOf (m.2.field "block")
    _ ≤ sizeOf m.2 := sizeOf_field_le "block" m.2
    _ < sizeOf (v.field "block_types") := sizeOf_entries_lt h
    _ ≤ sizeOf v := sizeOf_field_le "block_types" v

/-! ## violations -/

/-- The violation of an empty name. -/
def nameViolations (path name : String) : List Violation :=
  if name = "" then [⟨path, .emptyName⟩] else []

/-- All violations of a value, which may be absent, against what it must hold. -/
def Content.violations (path : String) : Content → Option Json → List Violation
  | .value fault?, v => (fault? v).toList.map (Violation.mk path)
  | .part p, some (.object members) =>
    p.members.flatMap fun m =>
      m.2.violations (memberPath path m.1) (Members.get? members m.1)
  -- where there is no object, nothing within is looked at
  | .part _, _ => [⟨path, .notObject⟩]
  | .parts p _, some (.object members) =>
    members.flatMap fun m =>
      nameViolations path m.1 ++ (Content.part p).violations (memberPath path m.1) (some m.2)
  | .parts _ needed, v => if v.getD .null = .null ∧ ¬ needed then [] else [⟨path, .notObject⟩]
termination_by _ v => sizeOf v
decreasing_by
  · exact sizeOf_get?_lt members m.1
  · simpa using sizeOf_lt_of_mem ‹_›

/-- All violations of a document. -/
def violations (v : Json) : List Violation := (Content.part .document).violations "$" (some v)

/-- An absent part has the violations of null. -/
theorem violations_part (p : Part) (path : String) (v : Option Json) :
    (Content.part p).violations path v =
      (Content.part p).violations path (some (v.getD .null)) := by
  cases v with
  | none =>
      rw [Content.violations, Content.violations]
      · simp
      · simp
  | some v => rfl

/-! ## the reading -/

/-- The text that a value is, if it is one. -/
def textOf? : Json → Option String
  | .string s => some s
  | _ => none

/-- The whole number that a value is. -/
def integerOf : Json → Int
  | .int n => n
  | _ => 0

def countOf? : Json → Option Nat
  | .int n => some n.toNat
  | _ => none

/-- Whether a value is a flag that is set. -/
def flagOf : Json → Bool
  | .bool b => b
  | _ => false

/-- The kind of description that a value names, if it does. -/
def descriptionKindOf? (v : Json) : Option DescriptionKind :=
  [DescriptionKind.plain, .markdown].find? fun kind => v = .string kind.text

/-- The type that a value is: a tag, or a tag with parameters. -/
def typeOf : Json → AttributeType
  | .array (tag :: rest) => .tagged ((textOf? tag).getD "") rest
  | v => .primitive ((textOf? v).getD "")

def attributeOf (v : Json) : Attribute where
  type := typeOf (v.field "type")
  description := textOf? (v.field "description")
  required := flagOf (v.field "required")
  optional := flagOf (v.field "optional")
  computed := flagOf (v.field "computed")
  sensitive := flagOf (v.field "sensitive")
  descriptionKind := descriptionKindOf? (v.field "description_kind")
  deprecated := flagOf (v.field "deprecated")

def nestingOf (v : Json) : Nesting where
  mode := textOf? (v.field "nesting_mode")
  minItems := countOf? (v.field "min_items")
  maxItems := countOf? (v.field "max_items")

def blockOf (v : Json) : Block :=
  .mk ((v.field "attributes").entries.mapValues attributeOf)
    ((v.field "block_types").entries.attach.map fun m =>
      (m.1.1, nestingOf m.1.2, blockOf (m.1.2.field "block")))
termination_by sizeOf v
decreasing_by exact sizeOf_block_lt m.2

def nestedOf (v : Json) : Nesting × Block := (nestingOf v, blockOf (v.field "block"))

/-- The block of a value is made of its attributes and its block types. -/
theorem blockOf_eq (v : Json) :
    blockOf v = .mk ((v.field "attributes").entries.mapValues attributeOf)
      ((v.field "block_types").entries.mapValues nestedOf) := by
  rw [blockOf]
  congr 1
  exact List.attach_map_val (f := fun m : String × Json => (m.1, nestedOf m.2))

def itemOf (v : Json) : SchemaItem where
  version := integerOf (v.field "version")
  block := blockOf (v.field "block")

def providerOf (v : Json) : ProviderSchema where
  provider := itemOf (v.field "provider")
  resources := (v.field "resource_schemas").entries.mapValues itemOf
  dataSources := (v.field "data_source_schemas").entries.mapValues itemOf

/-- The schema that a document stands for. -/
def reading (v : Json) : Schema where
  formatVersion := (textOf? (v.field "format_version")).getD ""
  providers := (v.field "provider_schemas").entries.mapValues providerOf

end Schema

end ProviderTypes
