import ProviderTypes.Members
import ProviderTypes.Number.Binary64
import ProviderTypes.Text.Quoted
/-!
# ProviderTypes.Json.Basic

JSON values with the members of objects in document order, and the way messages show them.
Whole numbers and floating point numbers are different values.
-/

namespace ProviderTypes

/-- A JSON value. -/
inductive Json where
  | null
  | bool (b : Bool)
  | int (n : Int)
  | float (x : Binary64)
  | string (s : String)
  | array (items : List Json)
  | object (members : List (String × Json))
  deriving Repr, Inhabited

namespace Json

/-- The value of a member; an absent member reads as null. -/
def member (members : Members Json) (name : String) : Json :=
  (members.get? name).getD .null

def isNull : Json → Bool
  | .null => true
  | _ => false

/-! ## Equality -/

mutual
def beq : Json → Json → Bool
  | .null, .null => true
  | .bool a, .bool b => a == b
  | .int a, .int b => a == b
  | .float a, .float b => a == b
  | .string a, .string b => a == b
  | .array a, .array b => beqItems a b
  | .object a, .object b => beqMembers a b
  | _, _ => false
def beqItems : List Json → List Json → Bool
  | [], [] => true
  | a :: as, b :: bs => beq a b && beqItems as bs
  | _, _ => false
def beqMembers : List (String × Json) → List (String × Json) → Bool
  | [], [] => true
  | (m, a) :: as, (n, b) :: bs => m == n && beq a b && beqMembers as bs
  | _, _ => false
end

mutual
/-- Values that compare as equal are equal. -/
theorem eq_of_beq : ∀ {a b : Json}, beq a b = true → a = b
  | .null, b, h => by cases b <;> simp_all [beq]
  | .bool _, b, h => by cases b <;> simp_all [beq]
  | .int _, b, h => by cases b <;> simp_all [beq]
  | .float _, b, h => by cases b <;> simp_all [beq]
  | .string _, b, h => by cases b <;> simp_all [beq]
  | .array as, b, h => by
    cases b <;> simp only [beq, Bool.false_eq_true] at h
    rw [eqItems_of_beq h]
  | .object as, b, h => by
    cases b <;> simp only [beq, Bool.false_eq_true] at h
    rw [eqMembers_of_beq h]
theorem eqItems_of_beq : ∀ {a b : List Json}, beqItems a b = true → a = b
  | [], b, h => by cases b <;> simp_all [beqItems]
  | a :: as, b, h => by
    cases b with
    | nil => simp [beqItems] at h
    | cons b bs =>
      simp only [beqItems, Bool.and_eq_true] at h
      rw [eq_of_beq h.1, eqItems_of_beq h.2]
theorem eqMembers_of_beq : ∀ {a b : List (String × Json)}, beqMembers a b = true → a = b
  | [], b, h => by cases b <;> simp_all [beqMembers]
  | (m, a) :: as, b, h => by
    cases b with
    | nil => simp [beqMembers] at h
    | cons b bs =>
      obtain ⟨n, b⟩ := b
      simp only [beqMembers, Bool.and_eq_true, beq_iff_eq] at h
      rw [h.1.1, eq_of_beq h.1.2, eqMembers_of_beq h.2]
end

mutual
/-- A value compares as equal to itself. -/
theorem beq_self : ∀ a : Json, beq a a = true
  | .null | .bool _ | .int _ | .float _ | .string _ => by simp [beq]
  | .array as => by simpa [beq] using beqItems_self as
  | .object as => by simpa [beq] using beqMembers_self as
theorem beqItems_self : ∀ as : List Json, beqItems as as = true
  | [] => rfl
  | a :: as => by simp [beqItems, beq_self a, beqItems_self as]
theorem beqMembers_self : ∀ as : List (String × Json), beqMembers as as = true
  | [] => rfl
  | (_, a) :: as => by simp [beqMembers, beq_self a, beqMembers_self as]
end

instance : DecidableEq Json := fun a b =>
  decidable_of_iff (beq a b = true) ⟨eq_of_beq, fun h => h ▸ beq_self a⟩

/-! ## In messages -/

mutual
/-- The value as messages show it. -/
def shown : Json → String
  | .null => "None"
  | .bool true => "True"
  | .bool false => "False"
  | .int n => toString n
  | .float x => x.text
  | .string s => quoted s
  | .array items => bracketed (shownItems items)
  | .object members => "\x7b" ++ ", ".intercalate (shownMembers members) ++ "\x7d"
def shownItems : List Json → List String
  | [] => []
  | item :: rest => item.shown :: shownItems rest
/-- The members of an object, each as its quoted name and its value. -/
def shownMembers : List (String × Json) → List String
  | [] => []
  | (name, value) :: rest => (quoted name ++ ": " ++ value.shown) :: shownMembers rest
end

end Json

end ProviderTypes
