import ProviderTypes.Proofs.Registry.Bare

/-!
# ProviderTypes.Proofs.Registry.Replacement

Entries that replace what stood under their keys.  After a list of replacements
with distinct keys each of the entries stands under its key as it is, and every
other key has what it had (`get?_replaceAll_of_mem`, `get?_replaceAll_of_not_mem`).
The registry grows by the entries whose keys are new (`size_replaceAll`), and
replacing entries that are there already does nothing (`replaceAll_eq_self`).
-/

namespace ProviderTypes

namespace OrderedMap

variable {α β : Type} [Ord α]

/-- A new key makes one entry more. -/
theorem length_insertEntry {key : α} {value : β} {entries : List (α × β)}
    (h : lookupEntry key entries = none) :
    (insertEntry key value entries).length = entries.length + 1 := by
  induction entries with
  | nil => rfl
  | cons e entries ih =>
      rw [lookupEntry] at h
      rw [insertEntry]
      cases hcompare : compare key e.1 with
      | lt => rfl
      | eq => simp [hcompare] at h
      | gt =>
          rw [if_neg (by simp [hcompare])] at h
          simpa using ih h

variable [Std.TransOrd α]

/-- A new key makes a map one entry larger. -/
theorem size_insert {m : OrderedMap α β} {key : α} {value : β} (h : m.get? key = none) :
    (m.insert key value).size = m.size + 1 := length_insertEntry h

/-- To write the value that a key has does nothing. -/
theorem insert_eq_self [Std.LawfulEqOrd α] [DecidableEq α] {m : OrderedMap α β} {key : α}
    {value : β} (h : m.get? key = some value) : m.insert key value = m := by
  apply ext_get?
  intro other
  rw [get?_insert]
  by_cases hother : other = key
  · rw [if_pos hother, hother, h]
  · rw [if_neg hother]

end OrderedMap

namespace Registry

variable {r r' : Registry} {key : QualifiedName} {c : Container} {es : List Entry}

/-! ## one entry -/

/-- A new key makes the registry larger by one. -/
theorem size_store (h : key ∉ r.keys) : (r.store key c).size = r.size + 1 := by
  have hnew : r.get? key = none := by
    cases hget : r.get? key with
    | none => rfl
    | some d => exact absurd (mem_keys.2 ⟨d, hget⟩) h
  exact OrderedMap.size_insert hnew

/-- To store an entry that is there does nothing. -/
theorem Consistent.store_eq_self (hr : r.Consistent) (h : r.get? key = some c) :
    r.store key c = r := by
  have howner : r.owners.get? key.fullName = some key := hr.owner_of_mem key (mem_keys.2 ⟨c, h⟩)
  unfold Registry.store
  rw [OrderedMap.insert_eq_self h, OrderedMap.insert_eq_self howner]

/-! ## lists of entries -/

/-- Entries leave other keys as they are. -/
theorem get?_replaceAll_of_not_mem (h : es.foldlM (fun r e => r.replace e.1 e.2) r = .ok r')
    (hkey : key ∉ es.map Prod.fst) : r'.get? key = r.get? key := by
  refine foldlM_preserves (P := fun m => m.get? key = r.get? key)
    (fun e he m m' hm hget => ?_) h rfl
  obtain ⟨-, rfl⟩ := replace_eq_ok.1 hm
  have hne : key ≠ e.1 := fun heq => hkey (List.mem_map.2 ⟨e, he, heq.symm⟩)
  rw [get?_store, if_neg hne, hget]

/-- Entries with distinct keys stand under their keys afterwards, metadata included. -/
theorem get?_replaceAll_of_mem (h : es.foldlM (fun r e => r.replace e.1 e.2) r = .ok r')
    (hdistinct : (es.map Prod.fst).Nodup) {e : Entry} (he : e ∈ es) :
    r'.get? e.1 = some e.2 := by
  induction es generalizing r with
  | nil => contradiction
  | cons d es ih =>
      obtain ⟨m, hm, h⟩ := foldlM_cons_eq_ok.1 h
      rw [List.map_cons, List.nodup_cons] at hdistinct
      cases List.mem_cons.1 he with
      | inl heq =>
          obtain ⟨-, rfl⟩ := replace_eq_ok.1 hm
          rw [heq, get?_replaceAll_of_not_mem h hdistinct.1, get?_store, if_pos rfl]
      | inr he => exact ih h hdistinct.2 he

/-- New keys make a registry larger, each by one entry. -/
theorem size_replaceAll (h : es.foldlM (fun r e => r.replace e.1 e.2) r = .ok r')
    (hdistinct : (es.map Prod.fst).Nodup) (hnew : ∀ e ∈ es, e.1 ∉ r.keys) :
    r'.size = r.size + es.length := by
  induction es generalizing r with
  | nil =>
      cases h
      rfl
  | cons e es ih =>
      obtain ⟨m, hm, h⟩ := foldlM_cons_eq_ok.1 h
      obtain ⟨-, rfl⟩ := replace_eq_ok.1 hm
      rw [List.map_cons, List.nodup_cons] at hdistinct
      rw [List.forall_mem_cons] at hnew
      have hnew' : ∀ d ∈ es, d.1 ∉ (r.store e.1 e.2).keys := by
        intro d hd hkey
        cases mem_keys_store.1 hkey with
        | inl hkey => exact hdistinct.1 (List.mem_map.2 ⟨d, hd, hkey⟩)
        | inr hkey => exact hnew.2 d hd hkey
      rw [ih h hdistinct.2 hnew', size_store hnew.1, List.length_cons]
      omega

/-- Entries that are there replace themselves. -/
theorem replaceAll_eq_self (hr : r.Consistent) (h : ∀ e ∈ es, r.get? e.1 = some e.2) :
    es.foldlM (fun r e => r.replace e.1 e.2) r = .ok r := by
  induction es with
  | nil => rfl
  | cons e es ih =>
      rw [List.forall_mem_cons] at h
      have hkey : e.1 ∈ r.keys := mem_keys.2 ⟨e.2, h.1⟩
      have hfree : r.otherOwner? e.1 = none :=
        (otherOwner?_eq_none_iff hr).2 fun _ hother hname => hr.eq_of_fullName_eq hother hkey hname
      have hreplace : r.replace e.1 e.2 = .ok r :=
        replace_eq_ok.2 ⟨hfree, (hr.store_eq_self h.1).symm⟩
      exact foldlM_cons_eq_ok.2 ⟨r, hreplace, ih h.2⟩

end Registry

end ProviderTypes
