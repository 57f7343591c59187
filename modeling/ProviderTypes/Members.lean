/-!
# ProviderTypes.Members

Lists of named things in the order of a document: the members of an object, the attributes of
a block. Writing a name again keeps the place of its first mention and takes the last value.

Main statements: what is written is found (`get?_put_self`, `get?_put_of_ne`), other places
stay (`names_put_of_mem`), and names stay distinct (`nodup_put`, `nodup_collect`).
-/

namespace ProviderTypes

/-- Named things in document order. -/
abbrev Members (α : Type) := List (String × α)

namespace Members

variable {α : Type}

def names (m : Members α) : List String := m.map Prod.fst

/-- The value of the first member with this name. -/
def get? (m : Members α) (name : String) : Option α := m.lookup name

def has (m : Members α) (name : String) : Bool := m.any fun p => p.1 == name

/-- Write a value under a name: in the place of the member of that name, else at the end. -/
def put (name : String) (value : α) : Members α → Members α
  | [] => [(name, value)]
  | (n, v) :: rest => if n = name then (n, value) :: rest else (n, v) :: put name value rest

/-- Write all members of `later` over those of `m`. -/
def putAll (m later : Members α) : Members α :=
  later.foldl (fun acc p => acc.put p.1 p.2) m

/-- The members that a document's list of pairs stands for: each name once, in the place of
    its first mention and with its last value. -/
def collect (pairs : List (String × α)) : Members α := putAll [] pairs

/-! ## Look-up after writing -/

@[simp] theorem get?_nil (name : String) : get? ([] : Members α) name = none := rfl

theorem get?_cons (p : String × α) (rest : Members α) (name : String) :
    get? (p :: rest) name = if name = p.1 then some p.2 else get? rest name := by
  obtain ⟨n, v⟩ := p
  by_cases h : name = n
  · subst h; simp [get?]
  · simp [get?, List.lookup_cons, h, beq_false_of_ne h]

/-- What is written to a name is read from it. -/
theorem get?_put_self (m : Members α) (name : String) (value : α) :
    (m.put name value).get? name = some value := by
  induction m with
  | nil => simp [put, get?_cons]
  | cons p rest ih =>
    obtain ⟨n, v⟩ := p
    by_cases h : n = name
    · simp [put, h, get?_cons]
    · simp [put, h, get?_cons, ih, Ne.symm h]

/-- Writing to a name leaves the other names. -/
theorem get?_put_of_ne (m : Members α) {name other : String} (h : other ≠ name) (value : α) :
    (m.put name value).get? other = m.get? other := by
  induction m with
  | nil => simp [put, get?_cons, h]
  | cons p rest ih =>
    obtain ⟨n, v⟩ := p
    by_cases hn : n = name
    · subst hn; simp [put, get?_cons, h]
    · simp [put, hn, get?_cons, ih]

/-! ## Names after writing -/

/-- A name that is written again stays in its place. -/
theorem names_put_of_mem {m : Members α} {name : String} (h : name ∈ m.names) (value : α) :
    (m.put name value).names = m.names := by
  induction m with
  | nil => simp [names] at h
  | cons p rest ih =>
    obtain ⟨n, v⟩ := p
    by_cases hn : n = name
    · simp [put, hn, names]
    · have : name ∈ names rest := by simpa [names, Ne.symm hn] using h
      have := ih this
      simp only [names] at this ⊢
      simp [put, hn, this]

/-- A new name comes last. -/
theorem names_put_of_not_mem {m : Members α} {name : String} (h : name ∉ m.names) (value : α) :
    m.put name value = m ++ [(name, value)] := by
  induction m with
  | nil => rfl
  | cons p rest ih =>
    obtain ⟨n, v⟩ := p
    simp only [names, List.map_cons, List.mem_cons, not_or] at h
    simp [put, Ne.symm h.1, ih h.2]

/-- Writing keeps names distinct. -/
theorem nodup_put {m : Members α} (h : m.names.Nodup) (name : String) (value : α) :
    (m.put name value).names.Nodup := by
  by_cases hm : name ∈ m.names
  · rw [names_put_of_mem hm]; exact h
  · rw [names_put_of_not_mem hm]
    simp only [names, List.map_append, List.map_cons, List.map_nil] at h hm ⊢
    refine List.nodup_append.2 ⟨h, by simp, ?_⟩
    rintro a ha b hb rfl
    simp only [List.mem_singleton] at hb
    exact hm (hb ▸ ha)

/-- Writing members one after another keeps the names distinct. -/
theorem nodup_putAll {m : Members α} (h : m.names.Nodup) (later : Members α) :
    (m.putAll later).names.Nodup := by
  induction later generalizing m with
  | nil => exact h
  | cons p rest ih => exact ih (nodup_put h p.1 p.2)

/-- Collected members have distinct names. -/
theorem nodup_collect (pairs : List (String × α)) : (collect pairs).names.Nodup :=
  nodup_putAll (by simp [names]) pairs

end Members

end ProviderTypes
