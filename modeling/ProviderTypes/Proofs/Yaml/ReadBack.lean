import ProviderTypes.Proofs.Container.Construction
import ProviderTypes.Yaml.Plain

/-!
# ProviderTypes.Proofs.Yaml.ReadBack

Reading plain data back.  Formats are read back as they were
(`Format.ofPlain?_plain`), shapes and containers without their metadata
(`Container.ofPlain?_plain`), and a registry as the list of its full names with
their bare containers (`Registry.ofPlain?_plain`).
-/

namespace ProviderTypes

/-! ## formats -/

/-- The format that a word stands for. -/
def Format.ofWord? : String → Option Format
  | "UNIT" => some .unit
  | "BOOL" => some .bool
  | "CHAR" => some .char
  | "STR" => some .str
  | "BYTES" => some .bytes
  | "I8" => some (.int .w8 true)
  | "I16" => some (.int .w16 true)
  | "I32" => some (.int .w32 true)
  | "I64" => some (.int .w64 true)
  | "I128" => some (.int .w128 true)
  | "U8" => some (.int .w8 false)
  | "U16" => some (.int .w16 false)
  | "U32" => some (.int .w32 false)
  | "U64" => some (.int .w64 false)
  | "U128" => some (.int .w128 false)
  | "F32" => some (.float .w32)
  | "F64" => some (.float .w64)
  | _ => none

mutual
/-- The format that data stands for. -/
def Format.ofPlain? : Plain → Option Format
  | .scalar (.text word) => ofWord? word
  | .map [(.text "OPTION", inner)] => (ofPlain? inner).map .option
  | .map [(.text "SEQ", element)] => (ofPlain? element).map .seq
  | .map [(.text "MAP", .map [(.text "KEY", key), (.text "VALUE", value)])] => do
    return .map (← ofPlain? key) (← ofPlain? value)
  | .map [(.text "TUPLE", .seq elements)] => (ofPlains? elements).map .tuple
  | .map [(.text "TUPLEARRAY",
      .map [(.text "CONTENT", element), (.text "SIZE", .scalar (.int (.ofNat size)))])] =>
    if h : 0 < size then (ofPlain? element).map fun f => .array f size h else none
  | .map [(.text "TYPENAME", .scalar (.text name))] =>
    if h : name ≠ "" then some (.ref name h) else none
  | _ => none
def Format.ofPlains? : List Plain → Option (List Format)
  | [] => some []
  | p :: rest => do return (← ofPlain? p) :: (← ofPlains? rest)
end

mutual
/-- A format is read back from its data. -/
theorem Format.ofPlain?_plain : (f : Format) → ofPlain? f.plain = some f
  | .unit | .bool | .char | .str | .bytes => rfl
  | .int width signed => by cases width <;> cases signed <;> rfl
  | .float width => by cases width <;> rfl
  | .option inner => by
      rw [plain, Plain.single, ofPlain?, ofPlain?_plain inner]
      rfl
  | .seq element => by
      rw [plain, Plain.single, ofPlain?, ofPlain?_plain element]
      rfl
  | .map key value => by
      rw [plain, Plain.single, ofPlain?, ofPlain?_plain key, ofPlain?_plain value]
      rfl
  | .tuple elements => by
      rw [plain, Plain.single, ofPlain?, ofPlains?_plainAll elements]
      rfl
  | .array element size positive => by
      have hread : ofPlain? (Format.array element size positive).plain =
          if h : 0 < size then (ofPlain? element.plain).map fun f => Format.array f size h
          else none := rfl
      rw [hread, dif_pos positive, ofPlain?_plain element]
      rfl
  | .ref name named => dif_pos named
theorem Format.ofPlains?_plainAll : (fs : List Format) → ofPlains? (plainAll fs) = some fs
  | [] => rfl
  | f :: fs => by
      rw [plainAll, ofPlains?, ofPlain?_plain f, ofPlains?_plainAll fs]
      rfl
end

/-! ## containers -/

def Field.ofPlain? : Plain → Option Field
  | .map [(.text name, value)] => (Format.ofPlain? value).map fun f => { name, value := f }
  | _ => none

def Record.ofPlain? : Plain → Option Record
  | .seq items => do (Record.ofFields .struct (← items.mapM Field.ofPlain?)).toOption
  | _ => none

def Shape.ofPlain? : Plain → Option Shape
  | .scalar (.text "UNIT") => some .unit
  | .map [(.text "NEWTYPE", f)] => (Format.ofPlain? f).map .newtype
  | .map [(.text "TUPLE", .seq fs)] => (Format.ofPlains? fs).map .tuple
  | .map [(.text "STRUCT", r)] => (Record.ofPlain? r).map .record
  | _ => none

/-- The variants that the entries of a mapping stand for, whose numbers are counted on. -/
def Union.ofPlainFrom? (start : Nat) : List (Scalar × Plain) → Option (List Variant)
  | [] => some []
  | (.int number, .map [(.text name, shape)]) :: rest =>
    if number = start then do
      return ⟨name, ← Shape.ofPlain? shape⟩ :: (← ofPlainFrom? (start + 1) rest)
    else none
  | _ => none

def Container.ofPlain? : Plain → Option Container
  | .scalar (.text "UNITSTRUCT") => some .unit
  | .map [(.text "NEWTYPESTRUCT", f)] => (Format.ofPlain? f).map .newtype
  | .map [(.text "STRUCT", r)] => (Record.ofPlain? r).map .record
  | .map [(.text "ENUM", .map entries)] => do
    (Union.ofVariants (← Union.ofPlainFrom? 0 entries)).toOption.map .union
  | _ => none

/-- A field is read back from its data, up to metadata. -/
theorem Field.ofPlain?_single (f : Field) :
    ofPlain? (.single f.name f.value.plain) = some f.bare := by
  rw [Plain.single, ofPlain?, Format.ofPlain?_plain]
  rfl

/-- Fields are read back from their data, up to metadata. -/
theorem Field.mapM_ofPlain?_map (fields : List Field) :
    (fields.map fun f => Plain.single f.name f.value.plain).mapM ofPlain? =
      some (fields.map Field.bare) := by
  induction fields with
  | nil => rfl
  | cons f fields ih =>
      rw [List.map_cons, List.mapM_cons, ofPlain?_single, ih]
      rfl

/-- A record is read back from its data, up to metadata. -/
theorem Record.ofPlain?_plain (r : Record) : ofPlain? r.plain = some r.bare := by
  rw [plain, ofPlain?, Field.mapM_ofPlain?_map]
  change (ofFields .struct r.bare.fields).toOption = some r.bare
  rw [ofFields_of_nodup .struct r.bare.distinct]
  rfl

/-- A shape is read back from its data, up to metadata. -/
theorem Shape.ofPlain?_plain (s : Shape) : ofPlain? s.plain = some s.bare := by
  cases s with
  | unit => rfl
  | newtype f =>
      rw [plain, Plain.single, ofPlain?, Format.ofPlain?_plain]
      rfl
  | tuple fs =>
      rw [plain, Plain.single, ofPlain?, Format.ofPlains?_plainAll]
      rfl
  | record r =>
      rw [plain, Plain.single, ofPlain?, Record.ofPlain?_plain]
      rfl

/-- Variants are read back from their data, up to metadata. -/
theorem Union.ofPlainFrom?_plainFrom (vs : List Variant) (start : Nat) :
    ofPlainFrom? start (plainFrom start vs) = some (vs.map Variant.bare) := by
  induction vs generalizing start with
  | nil => rfl
  | cons v vs ih =>
      rw [plainFrom, Plain.single, ofPlainFrom?, if_pos rfl, Shape.ofPlain?_plain, ih]
      rfl

/-- A container is read back without its metadata. -/
theorem Container.ofPlain?_plain (c : Container) : ofPlain? c.plain = some c.bare := by
  cases c with
  | unit => rfl
  | newtype f =>
      rw [plain, Plain.single, ofPlain?, Format.ofPlain?_plain]
      rfl
  | record r =>
      rw [plain, Plain.single, ofPlain?, Record.ofPlain?_plain]
      rfl
  | union u =>
      rw [plain, Plain.single, ofPlain?, Union.ofPlainFrom?_plainFrom]
      change (Union.ofVariants u.bare.variants).toOption.map Container.union = some (.union u.bare)
      rw [Union.ofVariants_of_nodup u.bare.distinct]
      rfl

/-! ## registries -/

/-- The full names and containers that data stands for. -/
def Registry.ofPlain? : Plain → Option (List (String × Container))
  | .map entries => entries.mapM fun e =>
    match e.1 with
    | .text name => (Container.ofPlain? e.2).map fun c => (name, c)
    | .int _ => none
  | _ => none

/-- A registry is read back as its full names with their bare containers, in order. -/
theorem Registry.ofPlain?_plain (r : Registry) :
    ofPlain? r.plain = some (r.items.map fun e => (e.1.fullName, e.2.bare)) := by
  rw [plain, ofPlain?]
  induction r.items with
  | nil => rfl
  | cons e es ih =>
      rw [List.map_cons, List.mapM_cons, ih, Container.ofPlain?_plain]
      rfl

end ProviderTypes
