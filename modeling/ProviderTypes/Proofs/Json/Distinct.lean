import ProviderTypes.Json.Reader
import Mathlib.Data.List.Basic

/-!
# ProviderTypes.Proofs.Json.Distinct

A value that is read from a text gives each name of an object once, at any depth
(`distinct_read`): of members that a text repeats, the last one counts.

`Reader.Yields` is a property of whatever a step of the reader gives.  Steps in
turn have it when each has it (`Yields.bind`), so that the three readers of values,
items and members are followed in their own recursion.
-/

namespace ProviderTypes

namespace Json

/-- No object in the value has a name twice. -/
inductive Distinct : Json → Prop where
  | null : Distinct .null
  | bool (b : Bool) : Distinct (.bool b)
  | int (n : Int) : Distinct (.int n)
  | float (x : Binary64) : Distinct (.float x)
  | string (s : String) : Distinct (.string s)
  | array {items : List Json} (each : ∀ v ∈ items, Distinct v) : Distinct (.array items)
  | object {members : Members Json} (names : members.names.Nodup)
      (each : ∀ m ∈ members, Distinct m.2) : Distinct (.object members)

end Json

namespace Members

variable {α : Type} {P : α → Prop}

/-- What is written is one of the values that were there or the value written. -/
theorem forall_mem_put {m : Members α} {name : String} {value : α} (h : ∀ e ∈ m, P e.2)
    (hvalue : P value) : ∀ e ∈ m.put name value, P e.2 := by
  induction m with
  | nil => simpa [put] using hvalue
  | cons e rest ih =>
      obtain ⟨he, hrest⟩ := List.forall_mem_cons.1 h
      rw [put]
      split
      · exact List.forall_mem_cons.2 ⟨hvalue, hrest⟩
      · exact List.forall_mem_cons.2 ⟨he, ih hrest⟩

/-- What holds of all values on both sides holds of them together. -/
theorem forall_mem_putAll {later m : Members α} (h : ∀ e ∈ m, P e.2) (hlater : ∀ e ∈ later, P e.2) :
    ∀ e ∈ m.putAll later, P e.2 := by
  induction later generalizing m with
  | nil => exact h
  | cons e rest ih =>
      obtain ⟨he, hrest⟩ := List.forall_mem_cons.1 hlater
      exact ih (forall_mem_put h he) hrest

/-- Collecting brings in no value. -/
theorem forall_mem_collect {pairs : List (String × α)} (h : ∀ e ∈ pairs, P e.2) :
    ∀ e ∈ collect pairs, P e.2 :=
  forall_mem_putAll (by simp) h

end Members

namespace Json.Reader

/-! ## reading -/

/-- What is read, if anything, has the property. -/
def Yields {α : Type} (P : α → Prop) (x : Except Fault α) : Prop := ∀ a, x = .ok a → P a

theorem yields_error {α : Type} {P : α → Prop} (e : Fault) : Yields P (.error e) := by
  intro a h
  cases h

theorem yields_ok {α : Type} {P : α → Prop} {a : α} (h : P a) : Yields P (.ok a) := by
  intro b hb
  cases hb
  exact h

/-- A value that holds is handed on. -/
theorem Yields.bind {α β : Type} {P : α → Prop} {Q : β → Prop} {x : Except Fault α}
    {f : α → Except Fault β} (hx : Yields P x) (hf : ∀ a, P a → Yields Q (f a)) :
    Yields Q (x >>= f) := by
  cases x with
  | error e => exact yields_error e
  | ok a => exact hf a (hx a rfl)

theorem yields_any {α : Type} (x : Except Fault α) : Yields (fun _ => True) x := fun _ _ => trivial

/-- A word is a value without members. -/
theorem distinct_word? {cs : List Char} {found : Json × Rest cs} (h : word? cs = some found) :
    found.1.Distinct := by
  unfold word? at h
  split at h <;> cases h <;> constructor

/-- A number is a value without members. -/
theorem distinct_number (cs : List Char) :
    Yields (fun found => found.1.Distinct) (number cs) := by
  unfold number
  split
  extract_lets whole afterWhole fraction afterFraction exponent size
  split
  · exact yields_error _
  split
  · extract_lets rest
    split
    · split
      · exact yields_error _
      · exact yields_ok (.int _)
    · exact yields_ok (.float _)
  · exact yields_error _

mutual
/-- No object in a value that is read has a name twice. -/
theorem distinct_value (cs : List Char) : Yields (fun found => found.1.Distinct) (value cs) := by
  unfold value
  split
  · exact yields_error _
  · -- a text
    exact (yields_any _).bind fun found _ => yields_ok (.string _)
  · -- an array
    next rest =>
      extract_lets hs
      have hlength : (skipSpace rest).length < ('[' :: rest).length := Nat.lt_succ_of_le hs
      split
      · exact yields_ok (.array (by simp))
      · exact (distinct_items (skipSpace rest)).bind fun found hfound => yields_ok (.array hfound)
  · -- an object
    next rest =>
      extract_lets hs
      have hlength : (skipSpace rest).length < ('\x7b' :: rest).length := Nat.lt_succ_of_le hs
      split
      · exact yields_ok (.object List.nodup_nil (by simp))
      · exact (distinct_pairs (skipSpace rest)).bind fun found hfound =>
          yields_ok (.object (Members.nodup_collect _) (Members.forall_mem_collect hfound))
  · -- a word or a number
    split
    · next h => exact yields_ok (distinct_word? h)
    · exact distinct_number _
termination_by (cs.length, 0)

/-- No object in an item that is read has a name twice. -/
theorem distinct_items (cs : List Char) :
    Yields (fun found => ∀ v ∈ found.1, v.Distinct) (items cs) := by
  unfold items
  refine (distinct_value cs).bind fun found hfound => ?_
  obtain ⟨item, r⟩ := found
  dsimp only
  split
  · exact yields_ok (by simpa using hfound)
  · next after h =>
      have hr := r.2
      have hs := length_skipSpace_le r.1
      have hs' := length_skipSpace_le after
      have hlength : (skipSpace after).length < cs.length := by
        rw [h, List.length_cons] at hs
        omega
      refine (distinct_items (skipSpace after)).bind fun others hothers => ?_
      exact yields_ok (List.forall_mem_cons.2 ⟨hfound, hothers⟩)
  · exact yields_error _
termination_by (cs.length, 1)

/-- No object in a member that is read has a name twice. -/
theorem distinct_pairs (cs : List Char) :
    Yields (fun found => ∀ p ∈ found.1, p.2.Distinct) (pairs cs) := by
  unfold pairs
  split
  · next inName =>
      refine (yields_any _).bind fun named _ => ?_
      obtain ⟨name, r⟩ := named
      dsimp only
      split
      · next inValue h =>
          have hr := r.2
          have hs := length_skipSpace_le r.1
          have hv := length_skipSpace_le inValue
          have hlength : (skipSpace inValue).length < ('"' :: inName).length := by
            rw [h, List.length_cons] at hs
            rw [List.length_cons]
            omega
          refine (distinct_value (skipSpace inValue)).bind fun found hfound => ?_
          obtain ⟨v, r₂⟩ := found
          dsimp only
          split
          · exact yields_ok (by simpa using hfound)
          · next after h₂ =>
              have hr₂ := r₂.2
              have hs₂ := length_skipSpace_le r₂.1
              have hs₃ := length_skipSpace_le after
              have hlength' : (skipSpace after).length < ('"' :: inName).length := by
                rw [h₂, List.length_cons] at hs₂
                omega
              refine (distinct_pairs (skipSpace after)).bind fun others hothers => ?_
              exact yields_ok (List.forall_mem_cons.2 ⟨hfound, hothers⟩)
          · exact yields_error _
      · exact yields_error _
  · exact yields_error _
termination_by (cs.length, 1)
end

/-- No object in a document that is read has a name twice. -/
theorem distinct_document (cs : List Char) : Yields Distinct (document cs) := by
  unfold document
  split
  · exact yields_error _
  · refine (distinct_value _).bind fun found hfound => ?_
    obtain ⟨v, r⟩ := found
    dsimp only
    split
    · exact yields_ok hfound
    · exact yields_error _

end Json.Reader

/-- A value that is read from a text has no name twice in an object. -/
theorem Json.distinct_read {text : String} {v : Json} (h : Json.read text = .ok v) :
    v.Distinct := by
  unfold Json.read at h
  dsimp only at h
  split at h
  · next w hw =>
      cases h
      exact Reader.distinct_document _ _ hw
  · cases h
  · cases h

end ProviderTypes
