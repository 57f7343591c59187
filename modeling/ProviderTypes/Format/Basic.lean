import ProviderTypes.Json.Basic
/-!
# ProviderTypes.Format.Basic

Value formats: the types of fields, independent of any target language. A format refers to a
named container by its emitted name only; whether that name exists is a matter of the registry.

The type holds well-formed formats only. The functions `intOfBits`, `floatOfBits`, `arrayOfSize`
and `refOfName` build a format from unchecked parts and say what is wrong with them.
-/

namespace ProviderTypes

/-- The widths of whole numbers, in bits. -/
inductive IntWidth where
  | w8 | w16 | w32 | w64 | w128
  deriving DecidableEq, Repr

/-- The widths of floating point numbers, in bits. -/
inductive FloatWidth where
  | w32 | w64
  deriving DecidableEq, Repr

def IntWidth.bits : IntWidth → Nat
  | .w8 => 8 | .w16 => 16 | .w32 => 32 | .w64 => 64 | .w128 => 128

def FloatWidth.bits : FloatWidth → Nat
  | .w32 => 32 | .w64 => 64

/-- The format of a value. -/
inductive Format where
  /-- The empty value. -/
  | unit
  | bool
  | int (width : IntWidth) (signed : Bool)
  | float (width : FloatWidth)
  | char
  | str
  /-- A buffer of bytes. -/
  | bytes
  /-- A value that may be absent. -/
  | option (inner : Format)
  | seq (element : Format)
  | map (key value : Format)
  | tuple (elements : List Format)
  /-- A sequence whose length is known ahead of time. -/
  | array (element : Format) (size : Nat) (positive : 0 < size)
  /-- A named container. -/
  | ref (name : String) (named : name ≠ "")
  deriving Repr, Inhabited

/-! ## Errors -/

/-- The kinds of records that are checked for distinct field names. -/
inductive RecordKind where
  | struct
  | structVariant
  deriving DecidableEq, Repr

def RecordKind.text : RecordKind → String
  | .struct => "struct"
  | .structVariant => "struct variant"

/-- Why parts do not make a format or a container. -/
inductive FormatError where
  | intWidth (bits : Int)
  | floatWidth (bits : Int)
  | arraySize (size : Json)
  | namelessRef
  | repeatedField (kind : RecordKind) (name : String)
  | discriminant (name : String) (found expected : Int)
  | repeatedVariant (name : String)
  deriving DecidableEq, Repr

def FormatError.message : FormatError → String
  | .intWidth bits => "Unsupported integer width: " ++ toString bits
  | .floatWidth bits => "Unsupported float width: " ++ toString bits
  | .arraySize size => "Fixed array size must be a positive integer: " ++ size.shown
  | .namelessRef => "Type references require a non-empty name."
  | .repeatedField kind name => "Duplicate field name in " ++ kind.text ++ ": " ++ name
  | .discriminant name found expected =>
    "Enum variant '" ++ name ++ "' has discriminant " ++ toString found ++ ", expected " ++
      toString expected ++ "."
  | .repeatedVariant name => "Duplicate enum variant name: " ++ name

/-! ## Checked construction -/

def IntWidth.ofBits? (bits : Int) : Option IntWidth :=
  [IntWidth.w8, .w16, .w32, .w64, .w128].find? fun w => (w.bits : Int) = bits

def FloatWidth.ofBits? (bits : Int) : Option FloatWidth :=
  [FloatWidth.w32, .w64].find? fun w => (w.bits : Int) = bits

namespace Format

/-- A whole number of this many bits. -/
def intOfBits (bits : Int) (signed : Bool) : Except FormatError Format :=
  match IntWidth.ofBits? bits with
  | some width => .ok (.int width signed)
  | none => .error (.intWidth bits)

/-- A floating point number of this many bits. -/
def floatOfBits (bits : Int) : Except FormatError Format :=
  match FloatWidth.ofBits? bits with
  | some width => .ok (.float width)
  | none => .error (.floatWidth bits)

/-- A sequence of fixed length; the length must be a positive whole number. -/
def arrayOfSize (element : Format) (size : Json) : Except FormatError Format :=
  match size with
  | .int (.ofNat n) => if h : 0 < n then .ok (.array element n h) else .error (.arraySize size)
  | _ => .error (.arraySize size)

/-- A reference to the container emitted under this name. -/
def refOfName (name : String) : Except FormatError Format :=
  if h : name ≠ "" then .ok (.ref name h) else .error .namelessRef

/-! ## Equality -/

mutual
def beq : Format → Format → Bool
  | .unit, .unit => true
  | .bool, .bool => true
  | .int w s, .int w' s' => w == w' && s == s'
  | .float w, .float w' => w == w'
  | .char, .char => true
  | .str, .str => true
  | .bytes, .bytes => true
  | .option a, .option b => beq a b
  | .seq a, .seq b => beq a b
  | .map k v, .map k' v' => beq k k' && beq v v'
  | .tuple as, .tuple bs => beqAll as bs
  | .array a n _, .array b m _ => beq a b && n == m
  | .ref n _, .ref m _ => n == m
  | _, _ => false
def beqAll : List Format → List Format → Bool
  | [], [] => true
  | a :: as, b :: bs => beq a b && beqAll as bs
  | _, _ => false
end

mutual
/-- Formats that compare as equal are equal. -/
theorem eq_of_beq : ∀ {a b : Format}, beq a b = true → a = b
  | .unit, b, h => by cases b <;> simp_all [beq]
  | .bool, b, h => by cases b <;> simp_all [beq]
  | .int _ _, b, h => by cases b <;> simp_all [beq]
  | .float _, b, h => by cases b <;> simp_all [beq]
  | .char, b, h => by cases b <;> simp_all [beq]
  | .str, b, h => by cases b <;> simp_all [beq]
  | .bytes, b, h => by cases b <;> simp_all [beq]
  | .option a, b, h => by
    cases b <;> simp only [beq, Bool.false_eq_true] at h
    rw [eq_of_beq h]
  | .seq a, b, h => by
    cases b <;> simp only [beq, Bool.false_eq_true] at h
    rw [eq_of_beq h]
  | .map k v, b, h => by
    cases b <;> simp only [beq, Bool.false_eq_true, Bool.and_eq_true] at h
    rw [eq_of_beq h.1, eq_of_beq h.2]
  | .tuple as, b, h => by
    cases b <;> simp only [beq, Bool.false_eq_true] at h
    rw [eqAll_of_beq h]
  | .array a n _, b, h => by
    cases b <;> simp only [beq, Bool.false_eq_true, Bool.and_eq_true, beq_iff_eq] at h
    obtain ⟨h₁, rfl⟩ := h
    rw [eq_of_beq h₁]
  | .ref n _, b, h => by cases b <;> simp_all [beq]
theorem eqAll_of_beq : ∀ {as bs : List Format}, beqAll as bs = true → as = bs
  | [], bs, h => by cases bs <;> simp_all [beqAll]
  | a :: as, bs, h => by
    cases bs with
    | nil => simp [beqAll] at h
    | cons b bs =>
      simp only [beqAll, Bool.and_eq_true] at h
      rw [eq_of_beq h.1, eqAll_of_beq h.2]
end

mutual
/-- A format compares as equal to itself. -/
theorem beq_self : ∀ a : Format, beq a a = true
  | .unit | .bool | .int _ _ | .float _ | .char | .str | .bytes | .ref _ _ => by simp [beq]
  | .option a => by simpa [beq] using beq_self a
  | .seq a => by simpa [beq] using beq_self a
  | .map k v => by simp [beq, beq_self k, beq_self v]
  | .tuple as => by simpa [beq] using beqAll_self as
  | .array a _ _ => by simp [beq, beq_self a]
theorem beqAll_self : ∀ as : List Format, beqAll as as = true
  | [] => rfl
  | a :: as => by simp [beqAll, beq_self a, beqAll_self as]
end

instance : DecidableEq Format := fun a b =>
  decidable_of_iff (beq a b = true) ⟨eq_of_beq, fun h => h ▸ beq_self a⟩

/-! ## References -/

mutual
/-- The names a format refers to, in order of occurrence and with repetitions. -/
def refs : Format → List String
  | .option inner => inner.refs
  | .seq element => element.refs
  | .map key value => key.refs ++ value.refs
  | .tuple elements => refsAll elements
  | .array element _ _ => element.refs
  | .ref name _ => [name]
  | _ => []
def refsAll : List Format → List String
  | [] => []
  | f :: rest => f.refs ++ refsAll rest
end

/-- Formats refer to what their members refer to. -/
theorem refsAll_eq_flatMap (fs : List Format) : refsAll fs = fs.flatMap refs := by
  induction fs with
  | nil => rfl
  | cons f rest ih => simp [refsAll, ih]

end Format

end ProviderTypes
