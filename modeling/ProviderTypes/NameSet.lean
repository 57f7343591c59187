import ProviderTypes.OrderedMap
/-!
# ProviderTypes.NameSet

Finite sets of names, listed in increasing order. Two sets with the same members are equal.

Main statement: the set of a list holds exactly the members of the list
(`contains_ofNames_iff`).
-/

namespace ProviderTypes

/-- A finite set of names. -/
abbrev NameSet := OrderedMap String Unit

namespace NameSet

def ofNames (names : List String) : NameSet :=
  .ofList (names.map fun name => (name, ()))

def names (s : NameSet) : List String := OrderedMap.keys s

/-- A set to which names were added holds these and what it held before. -/
theorem contains_foldl_insert_iff (pairs : List (String × Unit)) (s : NameSet) (name : String) :
    (pairs.foldl (fun m p => OrderedMap.insert m p.1 p.2) s).contains name = true ↔
      (∃ p ∈ pairs, p.1 = name) ∨ OrderedMap.contains s name = true := by
  induction pairs generalizing s with
  | nil => simp
  | cons p rest ih =>
    rw [List.foldl_cons, ih]
    simp only [OrderedMap.contains, OrderedMap.get?_insert, List.mem_cons, exists_eq_or_imp]
    by_cases h : name = p.1
    · simp [h]
    · simp [h, Ne.symm h]

/-- The set of a list holds exactly the members of the list. -/
theorem contains_ofNames_iff {names : List String} {name : String} :
    OrderedMap.contains (ofNames names) name = true ↔ name ∈ names := by
  rw [ofNames, OrderedMap.ofList, contains_foldl_insert_iff]
  simp [OrderedMap.contains]

end NameSet

end ProviderTypes
