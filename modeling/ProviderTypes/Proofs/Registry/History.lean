import ProviderTypes.Proofs.QualifiedName
import ProviderTypes.Proofs.Registry.Admission

/-!
# ProviderTypes.Proofs.Registry.History

Registries over their whole life.  A history is any sequence of operations; a
merge in it takes the registry that another history leaves, and an operation that
is refused stays in the sequence.

One operation keeps the index of full names in step with the entries
(`Consistent.perform`), and so does every history (`consistent_after`).  What look-up
by full name and the order of the keys owe to this is collected in
`after_empty_consistent`.
-/

namespace ProviderTypes

namespace Registry

variable {r s : Registry} {key : QualifiedName} {c : Container}

/-! ## histories -/

/-- What is done to a registry. -/
inductive Operation where
  | insert (key : QualifiedName) (c : Container)
  | replace (key : QualifiedName) (c : Container)
  /-- Take the registry of this policy that a history leaves. -/
  | merge (policy : DuplicatePolicy) (history : List Operation)

/-- The registry after an attempt: what was granted, or the registry as it was. -/
def orStay (r : Registry) (attempt : Except RegistryError Registry) : Registry :=
  match attempt with
  | .ok r' => r'
  | .error _ => r

mutual
/-- The registry after an operation, granted or refused. -/
def perform : Operation → Registry → Registry
  | .insert key c, r => r.orStay (r.insert key c)
  | .replace key c, r => r.orStay (r.replace key c)
  | .merge policy history, r => (r.merge (after history (.empty policy))).2
/-- The registry after a history. -/
def after : List Operation → Registry → Registry
  | [], r => r
  | op :: rest, r => after rest (perform op r)
end

/-! ## the invariant -/

/-- An attempt keeps the registry consistent, whether it is granted or refused. -/
theorem Consistent.orStay {attempt : Except RegistryError Registry} (hr : r.Consistent)
    (h : ∀ r', attempt = .ok r' → r'.Consistent) : (r.orStay attempt).Consistent := by
  cases attempt with
  | ok r' => exact h r' rfl
  | error e => exact hr

/-- One operation keeps a registry consistent, whether it is granted or refused. -/
theorem Consistent.perform (hr : r.Consistent) (op : Operation) : (perform op r).Consistent := by
  cases op with
  | insert key c =>
      rw [Registry.perform]
      exact hr.orStay fun r' h => hr.insert h
  | replace key c =>
      rw [Registry.perform]
      exact hr.orStay fun r' h => hr.replace h
  | merge policy history =>
      rw [Registry.perform]
      exact hr.takeAll

/-- Every history keeps a registry consistent. -/
theorem consistent_after (history : List Operation) (hr : r.Consistent) :
    (after history r).Consistent := by
  induction history generalizing r with
  | nil =>
      rw [after]
      exact hr
  | cons op rest ih =>
      rw [after]
      exact ih (hr.perform op)

/-! ## look-up and order -/

/-- The index of a consistent registry has the full names of the keys, each with its own key. -/
theorem Consistent.owner_iff (hr : r.Consistent) {name : String} :
    r.owners.get? name = some key ↔ key ∈ r.keys ∧ key.fullName = name := by
  constructor
  · exact hr.mem_of_owner name key
  · intro hkey
    obtain ⟨hmem, hname⟩ := hkey
    rw [← hname]
    exact hr.owner_of_mem key hmem

/-- A key is found by its full name. -/
theorem Consistent.resolve?_fullName (hr : r.Consistent) (hkey : key ∈ r.keys) :
    r.resolve? key.fullName = r.get? key := by
  rw [resolve?, hr.owner_of_mem key hkey]
  rfl

/-- Only full names of keys are found. -/
theorem Consistent.resolve?_eq_none (hr : r.Consistent) {name : String}
    (h : ∀ key ∈ r.keys, key.fullName ≠ name) : r.resolve? name = none := by
  rw [resolve?]
  cases howner : r.owners.get? name with
  | none => rfl
  | some key =>
      obtain ⟨hmem, hname⟩ := hr.mem_of_owner name key howner
      exact absurd hname (h key hmem)

/-- The keys of a registry are in order. -/
theorem pairwise_precedes_keys (r : Registry) : r.keys.Pairwise QualifiedName.Precedes :=
  List.pairwise_map.2 (r.entries.increasing.imp fun h => QualifiedName.precedes_of_compare h)

theorem nodup_keys (r : Registry) : r.keys.Nodup :=
  r.pairwise_precedes_keys.imp fun {a b} h hab => by
    subst hab
    exact a.not_precedes_self h

/-- A registry after any history.  Its index of full names has the full names of the keys, each with
its own key, and no other.  No two keys have one full name; a key is found by its full name, and by
any other name nothing is.  The keys are those that have a container, each once and in order. -/
theorem after_empty_consistent (policy : DuplicatePolicy) (history : List Operation) :
    let r := after history (empty policy)
    (∀ name key, r.owners.get? name = some key ↔ key ∈ r.keys ∧ key.fullName = name) ∧
      (∀ a ∈ r.keys, ∀ b ∈ r.keys, a.fullName = b.fullName → a = b) ∧
      (∀ key ∈ r.keys, r.resolve? key.fullName = r.get? key) ∧
      (∀ name, (∀ key ∈ r.keys, key.fullName ≠ name) → r.resolve? name = none) ∧
      (∀ key, key ∈ r.keys ↔ ∃ c, r.get? key = some c) ∧
      r.keys.Nodup ∧ r.keys.Pairwise QualifiedName.Precedes := by
  intro r
  have hr : r.Consistent := consistent_after history (consistent_empty policy)
  exact ⟨fun _ _ => hr.owner_iff, fun _ ha _ hb => hr.eq_of_fullName_eq ha hb,
    fun _ hkey => hr.resolve?_fullName hkey, fun _ h => hr.resolve?_eq_none h,
    fun _ => mem_keys, r.nodup_keys, r.pairwise_precedes_keys⟩

/-- The keys `x` and `("", "x")` share a full name.  The merge is refused the second and stops
before the next entry, the insertion is refused it again, and `x` is found still. -/
theorem after_empty_consistent_refused :
    let other := [Operation.insert ⟨some "", "x"⟩ .unit, .insert ⟨some "a", "y"⟩ .unit]
    let r := after [.insert ⟨none, "x"⟩ .unit, .merge .overwrite other,
      .insert ⟨some "", "x"⟩ .unit] (empty .error)
    ⟨none, "x"⟩ ∈ r.keys ∧ r.resolve? "x" = r.get? ⟨none, "x"⟩ ∧
      (∀ key ∈ r.keys, key.fullName ≠ "a_y") ∧ r.resolve? "a_y" = none := by
  intro other r
  obtain ⟨-, -, hfound, habsent, -⟩ := after_empty_consistent .error
    [.insert ⟨none, "x"⟩ .unit, .merge .overwrite other, .insert ⟨some "", "x"⟩ .unit]
  have hx : ⟨none, "x"⟩ ∈ r.keys := by decide +kernel
  have hy : ∀ key ∈ r.keys, key.fullName ≠ "a_y" := by decide +kernel
  exact ⟨hx, hfound _ hx, hy, habsent _ hy⟩

end Registry

end ProviderTypes
