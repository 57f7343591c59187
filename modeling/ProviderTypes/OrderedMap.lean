/-!
# ProviderTypes.OrderedMap

Maps that list their entries in strictly increasing order of their keys. The order is part of
the type, so that two maps with the same look-ups are equal, and a list of pairs in any order
becomes the one list sorted by key.

Main statements: the two look-up laws of `insert` (`get?_insert_self`, `get?_insert_of_ne`),
extensionality (`ext_get?`), and entries as look-ups (`mem_entries_iff`).
-/

namespace ProviderTypes

/-- A map as the list of its entries in strictly increasing order of keys. -/
structure OrderedMap (α β : Type) [Ord α] where
  entries : List (α × β)
  increasing : entries.Pairwise fun a b => compare a.1 b.1 = .lt

namespace OrderedMap

variable {α β γ : Type} [Ord α]

/-- Write an entry into a list of entries ordered by key. -/
def insertEntry (key : α) (value : β) : List (α × β) → List (α × β)
  | [] => [(key, value)]
  | (k, v) :: rest =>
    match compare key k with
    | .lt => (key, value) :: (k, v) :: rest
    | .eq => (key, value) :: rest
    | .gt => (k, v) :: insertEntry key value rest

/-- The value of a key in a list of entries. -/
def lookupEntry (key : α) : List (α × β) → Option β
  | [] => none
  | (k, v) :: rest => if compare key k = .eq then some v else lookupEntry key rest

/-- Insertion brings in the new entry only. -/
theorem eq_or_mem_of_mem_insertEntry {key : α} {value : β} {entries : List (α × β)} {e : α × β}
    (h : e ∈ insertEntry key value entries) : e = (key, value) ∨ e ∈ entries := by
  induction entries with
  | nil => simpa [insertEntry] using h
  | cons p rest ih =>
    obtain ⟨k, v⟩ := p
    rw [insertEntry] at h
    split at h
    · simpa using h
    · rcases List.mem_cons.1 h with h | h <;> simp [h]
    · rcases List.mem_cons.1 h with h | h
      · simp [h]
      · rcases ih h with h | h <;> simp [h]

/-- Insertion keeps the order. -/
theorem increasing_insertEntry [Std.TransOrd α] {key : α} {value : β} {entries : List (α × β)}
    (h : entries.Pairwise fun a b => compare a.1 b.1 = .lt) :
    (insertEntry key value entries).Pairwise fun a b => compare a.1 b.1 = .lt := by
  induction entries with
  | nil => simp [insertEntry]
  | cons p rest ih =>
    obtain ⟨k, v⟩ := p
    obtain ⟨hk, hrest⟩ := List.pairwise_cons.1 h
    rw [insertEntry]
    split
    · rename_i hc
      refine List.pairwise_cons.2 ⟨fun e he => ?_, h⟩
      rcases List.mem_cons.1 he with rfl | he
      · exact hc
      · exact Std.TransCmp.lt_trans hc (hk e he)
    · rename_i hc
      exact List.pairwise_cons.2 ⟨fun e he => Std.TransCmp.lt_of_eq_of_lt hc (hk e he), hrest⟩
    · rename_i hc
      refine List.pairwise_cons.2 ⟨fun e he => ?_, ih hrest⟩
      rcases eq_or_mem_of_mem_insertEntry he with rfl | he
      · exact Std.OrientedCmp.lt_of_gt hc
      · exact hk e he

def empty : OrderedMap α β := ⟨[], List.Pairwise.nil⟩

instance : EmptyCollection (OrderedMap α β) := ⟨empty⟩

instance : Inhabited (OrderedMap α β) := ⟨empty⟩

/-- The value of a key. -/
def get? (m : OrderedMap α β) (key : α) : Option β := lookupEntry key m.entries

def contains (m : OrderedMap α β) (key : α) : Bool := (m.get? key).isSome

def keys (m : OrderedMap α β) : List α := m.entries.map Prod.fst

def size (m : OrderedMap α β) : Nat := m.entries.length

/-- Write a value under a key, in place of the value it had. -/
def insert [Std.TransOrd α] (m : OrderedMap α β) (key : α) (value : β) : OrderedMap α β :=
  ⟨insertEntry key value m.entries, increasing_insertEntry m.increasing⟩

/-- The map of a list of pairs; of two pairs with one key the later counts. -/
def ofList [Std.TransOrd α] (pairs : List (α × β)) : OrderedMap α β :=
  pairs.foldl (fun m p => m.insert p.1 p.2) empty

theorem ext {m n : OrderedMap α β} (h : m.entries = n.entries) : m = n := by
  cases m; cases n; simpa using h

instance [DecidableEq α] [DecidableEq β] : DecidableEq (OrderedMap α β) := fun m n =>
  decidable_of_iff (m.entries = n.entries) ⟨ext, fun h => h ▸ rfl⟩

/-! ## Look-up -/

@[simp] theorem get?_empty (key : α) : (empty : OrderedMap α β).get? key = none := rfl

/-- The inserted value is found under its key. -/
theorem lookupEntry_insertEntry_self [Std.TransOrd α] (key : α) (value : β)
    (entries : List (α × β)) : lookupEntry key (insertEntry key value entries) = some value := by
  induction entries with
  | nil => simp [insertEntry, lookupEntry]
  | cons p rest ih =>
    obtain ⟨k, v⟩ := p
    rw [insertEntry]
    split
    · simp [lookupEntry]
    · simp [lookupEntry]
    · rename_i hc
      simp [lookupEntry, hc, ih]

/-- Insertion leaves what is found under other keys. -/
theorem lookupEntry_insertEntry_of_ne [Std.TransOrd α] [Std.LawfulEqOrd α] {key other : α}
    (h : other ≠ key) (value : β) (entries : List (α × β)) :
    lookupEntry other (insertEntry key value entries) = lookupEntry other entries := by
  have ho : compare other key ≠ .eq := fun e => h (Std.LawfulEqOrd.eq_of_compare e)
  induction entries with
  | nil => simp [insertEntry, lookupEntry, ho]
  | cons p rest ih =>
    obtain ⟨k, v⟩ := p
    rw [insertEntry]
    split
    · simp [lookupEntry, ho]
    · rename_i hc
      have hk : key = k := Std.LawfulEqOrd.eq_of_compare hc
      subst hk
      simp [lookupEntry, ho]
    · simp [lookupEntry, ih]

theorem get?_insert_self [Std.TransOrd α] (m : OrderedMap α β) (key : α) (value : β) :
    (m.insert key value).get? key = some value :=
  lookupEntry_insertEntry_self key value m.entries

theorem get?_insert_of_ne [Std.TransOrd α] [Std.LawfulEqOrd α] (m : OrderedMap α β)
    {key other : α} (h : other ≠ key) (value : β) :
    (m.insert key value).get? other = m.get? other :=
  lookupEntry_insertEntry_of_ne h value m.entries

theorem get?_insert [Std.TransOrd α] [Std.LawfulEqOrd α] [DecidableEq α] (m : OrderedMap α β)
    (key other : α) (value : β) :
    (m.insert key value).get? other = if other = key then some value else m.get? other := by
  split
  · rename_i h; rw [h, get?_insert_self]
  · rename_i h; rw [get?_insert_of_ne m h]

/-! ## Entries and look-up -/

/-- What is found is an entry. -/
theorem mem_of_lookupEntry_eq_some [Std.LawfulEqOrd α] {key : α} {value : β}
    {entries : List (α × β)} (h : lookupEntry key entries = some value) :
    (key, value) ∈ entries := by
  induction entries with
  | nil => simp [lookupEntry] at h
  | cons p rest ih =>
    obtain ⟨k, v⟩ := p
    rw [lookupEntry] at h
    split at h
    · rename_i hc
      rw [Std.LawfulEqOrd.eq_of_compare hc]
      simp_all
    · exact List.mem_cons_of_mem _ (ih h)

/-- In order every entry is found, since no key comes twice. -/
theorem lookupEntry_eq_some_of_mem [Std.TransOrd α] {key : α} {value : β}
    {entries : List (α × β)} (hs : entries.Pairwise fun a b => compare a.1 b.1 = .lt)
    (h : (key, value) ∈ entries) : lookupEntry key entries = some value := by
  induction entries with
  | nil => simp at h
  | cons p rest ih =>
    obtain ⟨k, v⟩ := p
    obtain ⟨hk, hrest⟩ := List.pairwise_cons.1 hs
    rw [lookupEntry]
    rcases List.mem_cons.1 h with h | h
    · simp_all
    · have hlt : compare k key = .lt := hk _ h
      have : compare key k ≠ .eq := by
        rw [Std.OrientedCmp.gt_of_lt hlt]; decide
      rw [if_neg this]
      exact ih hrest h

/-- The entries are exactly the pairs that look-up finds. -/
theorem mem_entries_iff [Std.TransOrd α] [Std.LawfulEqOrd α] {m : OrderedMap α β} {key : α}
    {value : β} : (key, value) ∈ m.entries ↔ m.get? key = some value :=
  ⟨lookupEntry_eq_some_of_mem m.increasing, mem_of_lookupEntry_eq_some⟩

/-- The keys are those under which a value is found. -/
theorem mem_keys_iff [Std.TransOrd α] [Std.LawfulEqOrd α] {m : OrderedMap α β} {key : α} :
    key ∈ m.keys ↔ ∃ value, m.get? key = some value := by
  simp only [keys, List.mem_map, Prod.exists]
  constructor
  · rintro ⟨k, v, hm, rfl⟩; exact ⟨v, mem_entries_iff.1 hm⟩
  · rintro ⟨v, hv⟩; exact ⟨key, v, mem_entries_iff.2 hv, rfl⟩

/-- Maps with the same look-ups are equal. -/
theorem ext_get? [Std.TransOrd α] [Std.LawfulEqOrd α] {m n : OrderedMap α β}
    (h : ∀ key, m.get? key = n.get? key) : m = n := by
  apply ext
  have hmem : ∀ e : α × β, e ∈ m.entries ↔ e ∈ n.entries := by
    rintro ⟨k, v⟩; rw [mem_entries_iff, mem_entries_iff, h k]
  have hne : ∀ {a b : α × β}, compare a.1 b.1 = .lt → a ≠ b := by
    rintro a b hlt rfl
    have heq : compare a.1 a.1 = .eq := Std.ReflCmp.compare_self
    rw [heq] at hlt
    exact absurd hlt (by decide)
  have hm : m.entries.Nodup := m.increasing.imp hne
  have hn : n.entries.Nodup := n.increasing.imp hne
  have hp : m.entries.Perm n.entries := by
    classical
    rw [List.perm_iff_count]
    intro e
    rw [hm.count, hn.count]
    simp [hmem e]
  refine hp.eq_of_pairwise (fun a b _ _ hab hba => ?_) m.increasing n.increasing
  rw [Std.OrientedCmp.gt_of_lt hab] at hba
  exact absurd hba (by decide)

end OrderedMap

end ProviderTypes
