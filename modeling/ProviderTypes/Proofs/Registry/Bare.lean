import ProviderTypes.Proofs.Registry.Consistency

/-!
# ProviderTypes.Proofs.Registry.Bare

Registries up to metadata.  `Registry.bare? r key` is the definition of a key
without metadata; two registries are equal (`Registry.Same`) exactly when they
give every key the same one (`same_iff`).

Seen this way the policies and the shortcut for repeated definitions disappear:
whenever an entry is granted, the registry afterwards has the entry's bare
definition under the entry's key and is unchanged elsewhere (`bare?_insert`,
`bare?_take`).  After a list of entries each key has its last definition there,
or what it had before (`Enters.bare?_foldlM`).
-/

namespace ProviderTypes

namespace OrderedMap

variable {α β γ : Type} [Ord α]

/-- The map with each value replaced by its image. -/
def mapValues (f : β → γ) (m : OrderedMap α β) : OrderedMap α γ :=
  ⟨m.entries.map fun e => (e.1, f e.2), List.pairwise_map.2 m.increasing⟩

theorem get?_mapValues (f : β → γ) (m : OrderedMap α β) (key : α) :
    (m.mapValues f).get? key = (m.get? key).map f := by
  change lookupEntry key (m.entries.map fun e => (e.1, f e.2)) = (lookupEntry key m.entries).map f
  induction m.entries with
  | nil => rfl
  | cons e rest ih =>
      obtain ⟨k, v⟩ := e
      rw [List.map_cons, lookupEntry, lookupEntry, ih]
      split <;> rfl

end OrderedMap

namespace Registry

variable {r r' : Registry} {key other : QualifiedName} {c : Container}

/-- The definition of a key, without metadata. -/
def bare? (r : Registry) (key : QualifiedName) : Option Container := (r.get? key).map Container.bare

/-- The keys are those that have a container, up to metadata. -/
theorem mem_keys_iff_bare? : key ∈ r.keys ↔ ∃ b, r.bare? key = some b := by
  rw [mem_keys]
  simp only [bare?, Option.map_eq_some_iff]
  constructor
  · intro hexists
    obtain ⟨c, hc⟩ := hexists
    exact ⟨c.bare, c, hc, rfl⟩
  · intro hexists
    obtain ⟨_, c, hc, -⟩ := hexists
    exact ⟨c, hc⟩

/-- The bare definition of a key tells whether the definition is structurally equal to another. -/
theorem bare?_eq_some_iff : r.bare? key = some c.bare ↔ ∃ d, r.get? key = some d ∧ d.Same c := by
  simp [bare?, Container.Same]

@[simp] theorem bare?_empty (policy : DuplicatePolicy) (key : QualifiedName) :
    (empty policy).bare? key = none := rfl

/-- Registries are equal when they give every key the same bare definition. -/
theorem same_iff {a b : Registry} : a.Same b ↔ ∀ key, a.bare? key = b.bare? key := by
  have hentries : a.Same b ↔
      a.entries.mapValues Container.bare = b.entries.mapValues Container.bare :=
    ⟨fun h => OrderedMap.ext h, fun h => congrArg OrderedMap.entries h⟩
  rw [hentries]
  constructor
  · intro h key
    have hget := congrArg (fun m => m.get? key) h
    simp only [OrderedMap.get?_mapValues] at hget
    exact hget
  · intro h
    apply OrderedMap.ext_get?
    intro key
    rw [OrderedMap.get?_mapValues, OrderedMap.get?_mapValues]
    exact h key

/-! ## one entry -/

/-- A stored container is found under its key, up to metadata. -/
theorem bare?_store :
    (r.store key c).bare? other = if other = key then some c.bare else r.bare? other := by
  unfold bare?
  rw [get?_store]
  split <;> rfl

/-- An entry that is granted gives its key its bare definition, whether it is stored or found
to be there already. -/
theorem bare?_insert (h : r.insert key c = .ok r') :
    r'.bare? other = if other = key then some c.bare else r.bare? other := by
  obtain ⟨-, ⟨rfl, hd⟩ | ⟨rfl, -⟩⟩ := insert_cases h
  · by_cases ho : other = key
    · rw [if_pos ho, ho, bare?_eq_some_iff]
      exact hd
    · rw [if_neg ho]
  · exact bare?_store

/-- A container that was taken is found under its key, up to metadata. -/
theorem bare?_take (h : r.take key c = .ok r') :
    r'.bare? other = if other = key then some c.bare else r.bare? other :=
  bare?_insert (take_eq_ok.1 h).1

/-! ## lists of entries -/

/-- The bare definition that the last of the entries under `key` gives it. -/
def lastBare? (key : QualifiedName) : List Entry → Option Container
  | [] => none
  | e :: rest => (lastBare? key rest).or (if key = e.1 then some e.2.bare else none)

/-- There is no last container for a key that comes nowhere. -/
theorem lastBare?_eq_none_iff {es : List Entry} :
    lastBare? key es = none ↔ ∀ e ∈ es, e.1 ≠ key := by
  induction es with
  | nil => simp [lastBare?]
  | cons e es ih =>
      rw [lastBare?, Option.or_eq_none_iff, ih, List.forall_mem_cons, and_comm]
      by_cases hk : key = e.1
      · simp [hk]
      · simp [hk, Ne.symm hk]

/-- The last definition is the definition of some entry. -/
theorem exists_mem_of_lastBare? {es : List Entry} {b : Container}
    (h : lastBare? key es = some b) : ∃ e ∈ es, e.1 = key ∧ e.2.bare = b := by
  induction es with
  | nil => simp [lastBare?] at h
  | cons e es ih =>
      rw [lastBare?, Option.or_eq_some_iff] at h
      cases h with
      | inl h =>
          obtain ⟨d, hd, hkey, hb⟩ := ih h
          exact ⟨d, List.mem_cons_of_mem _ hd, hkey, hb⟩
      | inr h =>
          obtain ⟨-, h⟩ := h
          by_cases hk : key = e.1
          · rw [if_pos hk, Option.some.injEq] at h
            exact ⟨e, List.mem_cons_self, hk.symm, h⟩
          · rw [if_neg hk] at h
            contradiction

/-- In the entries of a registry each key has its own definition last. -/
theorem lastBare?_items (r : Registry) (key : QualifiedName) :
    lastBare? key r.items = r.bare? key := by
  cases h : lastBare? key r.items with
  | none =>
      rw [lastBare?_eq_none_iff] at h
      cases hg : r.get? key with
      | none => simp [bare?, hg]
      | some c => exact absurd rfl (h (key, c) (mem_items.2 hg))
  | some b =>
      obtain ⟨e, he, rfl, rfl⟩ := exists_mem_of_lastBare? h
      simp [bare?, mem_items.1 he]

/-- A way of entering one entry: what it grants, it does by the rule of `bare?_insert`, and it
keeps registries consistent and their policy. -/
structure Enters (step : Registry → Entry → Except RegistryError Registry) : Prop where
  bare? : ∀ {r r' e}, step r e = .ok r' → ∀ key,
    r'.bare? key = if key = e.1 then some e.2.bare else r.bare? key
  consistent : ∀ {r r' e}, step r e = .ok r' → r.Consistent → r'.Consistent
  policy : ∀ {r r' e}, step r e = .ok r' → r'.policy = r.policy

/-- What an insertion grants is entered. -/
theorem enters_insert : Enters fun r e => r.insert e.1 e.2 where
  bare? h _ := bare?_insert h
  consistent h hr := hr.insert h
  policy h := policy_of_insert h

/-- What is taken is entered. -/
theorem enters_take : Enters fun r e => r.take e.1 e.2 where
  bare? h _ := bare?_take h
  consistent h hr := hr.insert (take_eq_ok.1 h).1
  policy h := policy_of_insert (take_eq_ok.1 h).1

/-- What a replacement grants is entered. -/
theorem enters_replace : Enters fun r e => r.replace e.1 e.2 where
  bare? h _ := by
    obtain ⟨-, rfl⟩ := replace_eq_ok.1 h
    exact bare?_store
  consistent h hr := hr.replace h
  policy h := by
    obtain ⟨-, rfl⟩ := replace_eq_ok.1 h
    rfl

section Enters
variable {step : Registry → Entry → Except RegistryError Registry} {es : List Entry}

/-- Steps over a list start with its head. -/
theorem foldlM_cons_eq_ok {e : Entry} :
    (e :: es).foldlM step r = .ok r' ↔ ∃ m, step r e = .ok m ∧ es.foldlM step m = .ok r' := by
  rw [List.foldlM_cons]
  cases step r e <;> simp [bind, Except.bind]

/-- What the step of each entry keeps is kept by the list. -/
theorem foldlM_preserves {P : Registry → Prop}
    (hkeeps : ∀ e ∈ es, ∀ m m', step m e = .ok m' → P m → P m') (h : es.foldlM step r = .ok r')
    (hr : P r) : P r' := by
  induction es generalizing r with
  | nil =>
      cases h
      exact hr
  | cons e es ih =>
      rw [List.forall_mem_cons] at hkeeps
      obtain ⟨m, hm, h⟩ := foldlM_cons_eq_ok.1 h
      exact ih hkeeps.2 h (hkeeps.1 r m hm hr)

/-- After a list of entries each key has its last definition there, or what it had before. -/
theorem Enters.bare?_foldlM (hstep : Enters step) (h : es.foldlM step r = .ok r')
    (key : QualifiedName) : r'.bare? key = (lastBare? key es).or (r.bare? key) := by
  induction es generalizing r with
  | nil =>
      cases h
      rfl
  | cons e es ih =>
      obtain ⟨m, hm, h⟩ := foldlM_cons_eq_ok.1 h
      rw [ih h, hstep.bare? hm, lastBare?, Option.or_assoc]
      split <;> rfl

/-- The keys after all steps are those entered and those from before. -/
theorem Enters.mem_keys_foldlM (hstep : Enters step) (h : es.foldlM step r = .ok r') :
    key ∈ r'.keys ↔ key ∈ es.map Prod.fst ∨ key ∈ r.keys := by
  rw [mem_keys_iff_bare?, mem_keys_iff_bare?, hstep.bare?_foldlM h key]
  by_cases hkey : key ∈ es.map Prod.fst
  · have hlast : lastBare? key es ≠ none := by
      rw [Ne, lastBare?_eq_none_iff]
      intro hall
      obtain ⟨e, he, hkey⟩ := List.mem_map.1 hkey
      exact hall e he hkey
    obtain ⟨b, hb⟩ := Option.ne_none_iff_exists'.1 hlast
    simp [hkey, hb]
  · have hlast : lastBare? key es = none :=
      lastBare?_eq_none_iff.2 fun e he hek => hkey (List.mem_map.2 ⟨e, he, hek⟩)
    simp only [hlast, hkey, Option.none_or, false_or]

/-- Entering keeps the registry consistent. -/
theorem Enters.consistent_foldlM (hstep : Enters step) (h : es.foldlM step r = .ok r')
    (hr : r.Consistent) : r'.Consistent :=
  foldlM_preserves (fun _ _ _ _ hm => hstep.consistent hm) h hr

/-- Entering keeps the policy. -/
theorem Enters.policy_foldlM (hstep : Enters step) (h : es.foldlM step r = .ok r') :
    r'.policy = r.policy :=
  foldlM_preserves (P := fun m => m.policy = r.policy)
    (fun _ _ _ _ hm hpolicy => (hstep.policy hm).trans hpolicy) h rfl

end Enters

end Registry

end ProviderTypes
