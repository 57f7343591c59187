import ProviderTypes.Registry.Basic

/-!
# ProviderTypes.Proofs.Registry.Consistency

A registry keeps its entries by key and, beside them, the key that owns each
full name.  The two stay in step: the owners are exactly the full names of the
keys, each with its own key (`Registry.Consistent`).  Every operation keeps
this, whether it takes an entry or refuses it.

A consistent registry therefore has at most one key for each full name
(`Consistent.eq_of_fullName_eq`), and a key is refused for its full name exactly
when another key has the same one (`otherOwner?_eq_none_iff`).

Main statements: `insert_cases` says what inserting can do, guards included;
`take_eq_ok` reduces taking an entry of another registry to inserting it.
-/

namespace ProviderTypes

namespace Registry

/-- A key with its container. -/
abbrev Entry := QualifiedName × Container

variable {r r' : Registry} {key : QualifiedName} {c : Container}

/-! ## look-up after storing -/

/-- A stored container is found under its key, and the other keys have theirs. -/
theorem get?_store (r : Registry) (key other : QualifiedName) (c : Container) :
    (r.store key c).get? other = if other = key then some c else r.get? other :=
  OrderedMap.get?_insert r.entries key other c

/-- A stored key owns its full name, and the other names have their owners. -/
theorem owners_store (r : Registry) (key : QualifiedName) (c : Container) (name : String) :
    (r.store key c).owners.get? name =
      if name = key.fullName then some key else r.owners.get? name :=
  OrderedMap.get?_insert r.owners key.fullName name key

/-- The keys are what look-up finds. -/
theorem mem_keys : key ∈ r.keys ↔ ∃ c, r.get? key = some c := OrderedMap.mem_keys_iff

/-- The entries are what look-up finds. -/
theorem mem_items {e : Entry} : e ∈ r.items ↔ r.get? e.1 = some e.2 := by
  obtain ⟨key, c⟩ := e
  exact OrderedMap.mem_entries_iff

/-- Storing adds its key and no other. -/
theorem mem_keys_store {other : QualifiedName} :
    other ∈ (r.store key c).keys ↔ other = key ∨ other ∈ r.keys := by
  rw [mem_keys, mem_keys, get?_store]
  by_cases h : other = key <;> simp [h]

/-! ## the representation invariant -/

/-- The index of full names holds the full names of the keys, each with its own
key, and nothing else. -/
structure Consistent (r : Registry) : Prop where
  /-- Every key owns its full name. -/
  owner_of_mem : ∀ key ∈ r.keys, r.owners.get? key.fullName = some key
  /-- Every owned name is the full name of its owner, which is a key. -/
  mem_of_owner : ∀ name key, r.owners.get? name = some key → key ∈ r.keys ∧ key.fullName = name

/-- The empty registry is consistent. -/
theorem consistent_empty (policy : DuplicatePolicy) : (empty policy).Consistent :=
  ⟨fun _ h => absurd h (by simp [keys, empty, OrderedMap.keys, OrderedMap.empty]),
    fun _ _ h => by simp [empty] at h⟩

/-- No two keys of a consistent registry have one full name. -/
theorem Consistent.eq_of_fullName_eq (h : r.Consistent) {a b : QualifiedName} (ha : a ∈ r.keys)
    (hb : b ∈ r.keys) (hab : a.fullName = b.fullName) : a = b := by
  have hoa := h.owner_of_mem a ha
  have hob := h.owner_of_mem b hb
  rw [hab, hob] at hoa
  exact (Option.some.inj hoa).symm

/-- A key meets no other owner exactly when no other key has its full name. -/
theorem otherOwner?_eq_none_iff (h : r.Consistent) :
    r.otherOwner? key = none ↔ ∀ k ∈ r.keys, k.fullName = key.fullName → k = key := by
  unfold otherOwner?
  rw [Option.filter_eq_none_iff]
  constructor
  · intro hn k hk hname
    have ho := h.owner_of_mem k hk
    rw [hname] at ho
    simpa using hn k ho
  · intro hk k ho
    obtain ⟨hmem, hname⟩ := h.mem_of_owner _ _ ho
    simpa using hk k hmem hname

/-- Storing under a name that no other key owns keeps a registry consistent. -/
theorem Consistent.store (h : r.Consistent) (hn : r.otherOwner? key = none) (c : Container) :
    (r.store key c).Consistent := by
  rw [otherOwner?_eq_none_iff h] at hn
  constructor
  · intro k hk
    rw [owners_store]
    cases mem_keys_store.1 hk with
    | inl hk => rw [if_pos (congrArg _ hk), hk]
    | inr hk =>
        by_cases hname : k.fullName = key.fullName
        · rw [if_pos hname, hn k hk hname]
        · rw [if_neg hname, h.owner_of_mem k hk]
  · intro name k ho
    rw [owners_store] at ho
    rw [mem_keys_store]
    by_cases hname : name = key.fullName
    · rw [if_pos hname, Option.some.injEq] at ho
      exact ⟨Or.inl ho.symm, by rw [← ho, hname]⟩
    · rw [if_neg hname] at ho
      obtain ⟨hk, hk'⟩ := h.mem_of_owner name k ho
      exact ⟨Or.inr hk, hk'⟩

/-! ## what the operations do -/

/-- Inserting is granted in two ways: the key has a structurally equal definition
already and nothing changes, or the entry is stored, and then any definition
that it replaces is replaced by the policy of overwriting. -/
theorem insert_cases (h : r.insert key c = .ok r') :
    r.otherOwner? key = none ∧
      ((r' = r ∧ ∃ d, r.get? key = some d ∧ d.Same c) ∨
        (r' = r.store key c ∧ ∀ d, r.get? key = some d → r.policy = .overwrite)) := by
  unfold insert at h
  cases ho : r.otherOwner? key with
  | some owner => simp [ho] at h
  | none =>
      refine ⟨rfl, ?_⟩
      cases hg : r.get? key with
      | none =>
          simp only [ho, hg, Except.ok.injEq] at h
          exact Or.inr ⟨h.symm, fun d hd => by contradiction⟩
      | some d =>
          simp only [ho, hg] at h
          by_cases hs : d.Same c
          · rw [if_pos hs, Except.ok.injEq] at h
            exact Or.inl ⟨h.symm, d, rfl, hs⟩
          · rw [if_neg hs] at h
            cases hp : r.policy with
            | error => simp [hp] at h
            | overwrite =>
                simp only [hp, Except.ok.injEq] at h
                exact Or.inr ⟨h.symm, fun _ _ => rfl⟩

/-- Inserting is granted when no other key owns the full name, and the policy is
to overwrite or the key has no structurally different definition. -/
theorem exists_insert_eq_ok (hn : r.otherOwner? key = none)
    (hd : r.policy = .overwrite ∨ ∀ d, r.get? key = some d → d.Same c) :
    ∃ r', r.insert key c = .ok r' := by
  unfold insert
  rw [hn]
  cases hg : r.get? key with
  | none => exact ⟨_, rfl⟩
  | some d =>
      by_cases hs : d.Same c
      · exact ⟨r, by simp [hs]⟩
      · cases hd with
        | inl hp => exact ⟨r.store key c, by simp [hs, hp]⟩
        | inr hd => exact absurd (hd d hg) hs

theorem policy_of_insert (h : r.insert key c = .ok r') : r'.policy = r.policy := by
  obtain ⟨-, ⟨rfl, -⟩ | ⟨rfl, -⟩⟩ := insert_cases h <;> rfl

/-- An insertion keeps the registry consistent. -/
theorem Consistent.insert (hr : r.Consistent) (h : r.insert key c = .ok r') : r'.Consistent := by
  obtain ⟨hn, ⟨rfl, -⟩ | ⟨rfl, -⟩⟩ := insert_cases h
  · exact hr
  · exact hr.store hn c

/-- An insertion adds its key and no other. -/
theorem mem_keys_insert (h : r.insert key c = .ok r') {other : QualifiedName} :
    other ∈ r'.keys ↔ other = key ∨ other ∈ r.keys := by
  obtain ⟨-, ⟨rfl, d, hd, -⟩ | ⟨rfl, -⟩⟩ := insert_cases h
  · constructor
    · exact Or.inr
    · intro hk
      cases hk with
      | inl hk =>
          rw [hk]
          exact mem_keys.2 ⟨d, hd⟩
      | inr hk => exact hk
  · exact mem_keys_store

/-- An entry of another registry is taken when it may be inserted and the key has
no structurally different definition. -/
theorem take_eq_ok :
    r.take key c = .ok r' ↔
      r.insert key c = .ok r' ∧ ∀ d, r.get? key = some d → d.Same c := by
  unfold take
  cases hg : r.get? key with
  | none => simp
  | some d =>
      by_cases hs : d.Same c
      · simp [hs]
      · simp [hs]

/-- Replacing is refused only where another key owns the full name; else it stores. -/
theorem replace_eq_ok :
    r.replace key c = .ok r' ↔ r.otherOwner? key = none ∧ r' = r.store key c := by
  unfold replace
  cases r.otherOwner? key with
  | none => simp [eq_comm]
  | some owner => simp

/-- A replacement keeps the registry consistent. -/
theorem Consistent.replace (hr : r.Consistent) (h : r.replace key c = .ok r') : r'.Consistent := by
  obtain ⟨hn, rfl⟩ := replace_eq_ok.1 h
  exact hr.store hn c

end Registry

end ProviderTypes
