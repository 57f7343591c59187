import ProviderTypes.AttributeFormat
import ProviderTypes.Proofs.Registry.Bare
import Mathlib.Data.List.Forall2
import Mathlib.Data.List.Nodup

/-!
# ProviderTypes.Proofs.Members.NameOrder

Members in the order of their names.  Members with distinct names that match, that
is give every name related values, stand side by side when they are put in order,
whatever their order was before (`Matches.inNameOrder`).  Replacing all values and
putting in order commute (`inNameOrder_mapValues`).
-/

namespace ProviderTypes

/-- Lists have the same images under two functions exactly when they do side by side. -/
theorem map_eq_map_iff_forall₂ {α β γ : Type} {f : α → γ} {g : β → γ} {l : List α} {m : List β} :
    l.map f = m.map g ↔ List.Forall₂ (fun a b => f a = g b) l m := by
  rw [← List.forall₂_map_right_iff, ← List.forall₂_map_left_iff, List.forall₂_eq_eq_eq]

namespace OrderedMap

variable {α β γ : Type} [Ord α]

/-- Maps whose look-ups are related have their entries side by side. -/
theorem forall₂_entries [Std.TransOrd α] [Std.LawfulEqOrd α] {R : β → γ → Prop}
    {m : OrderedMap α β} {n : OrderedMap α γ}
    (h : ∀ key, Option.Rel R (m.get? key) (n.get? key)) :
    List.Forall₂ (fun a b => a.1 = b.1 ∧ R a.2 b.2) m.entries n.entries := by
  have hunit : (m.mapValues fun _ => ()) = n.mapValues fun _ => () := by
    apply ext_get?
    intro key
    rw [get?_mapValues, get?_mapValues]
    have hrel := h key
    revert hrel
    cases m.get? key <;> cases n.get? key <;> rintro ⟨⟩ <;> rfl
  have hkeys : m.entries.map Prod.fst = n.entries.map Prod.fst := by
    have hkeys := congrArg keys hunit
    simpa [keys, mapValues, Function.comp_def] using hkeys
  have hlength : m.entries.length = n.entries.length := by
    simpa using congrArg List.length hkeys
  refine List.forall₂_iff_get.2 ⟨hlength, fun i hm hn => ?_⟩
  have hkey : (m.entries[i]).1 = (n.entries[i]).1 := by
    have hkey : (m.entries.map Prod.fst)[i]? = (n.entries.map Prod.fst)[i]? := by rw [hkeys]
    simpa [hm, hn] using hkey
  have hmget : m.get? (m.entries[i]).1 = some (m.entries[i]).2 :=
    mem_entries_iff.1 (List.getElem_mem hm)
  have hnget : n.get? (n.entries[i]).1 = some (n.entries[i]).2 :=
    mem_entries_iff.1 (List.getElem_mem hn)
  have hrel := h (m.entries[i]).1
  rw [hmget, hkey, hnget, Option.rel_some_some] at hrel
  exact ⟨hkey, hrel⟩

/-- No entry comes twice. -/
theorem nodup_entries [Std.TransOrd α] (m : OrderedMap α β) : m.entries.Nodup := by
  refine m.increasing.imp fun {a b} hlt heq => ?_
  rw [heq] at hlt
  exact absurd (hlt.symm.trans Std.ReflCmp.compare_self) (by decide)

/-- Values may be changed before or after an insertion. -/
theorem insertEntry_map (f : β → γ) (key : α) (value : β) (entries : List (α × β)) :
    insertEntry key (f value) (entries.map fun e => (e.1, f e.2)) =
      (insertEntry key value entries).map fun e => (e.1, f e.2) := by
  induction entries with
  | nil => rfl
  | cons e rest ih =>
      obtain ⟨k, v⟩ := e
      rw [List.map_cons, insertEntry, insertEntry]
      cases compare key k with
      | lt => rfl
      | eq => rfl
      | gt => exact congrArg _ ih

/-- Values may be changed before or after sorting. -/
theorem ofList_map [Std.TransOrd α] (f : β → γ) (pairs : List (α × β)) :
    ofList (pairs.map fun e => (e.1, f e.2)) = (ofList pairs).mapValues f := by
  have hfold : ∀ (pairs : List (α × β)) (m : OrderedMap α β),
      (pairs.map fun e => (e.1, f e.2)).foldl (fun n p => n.insert p.1 p.2) (m.mapValues f) =
        (pairs.foldl (fun n p => n.insert p.1 p.2) m).mapValues f := by
    intro pairs
    induction pairs with
    | nil => exact fun m => rfl
    | cons p pairs ih =>
        intro m
        have hinsert : (m.mapValues f).insert p.1 (f p.2) = (m.insert p.1 p.2).mapValues f :=
          ext (insertEntry_map f p.1 p.2 m.entries)
        rw [List.map_cons, List.foldl_cons, List.foldl_cons, ← ih, ← hinsert]
  exact hfold pairs empty

end OrderedMap

namespace Members

variable {α β : Type}

/-- The members with each value replaced by its image. -/
def mapValues (f : α → β) (m : Members α) : Members β := m.map fun e => (e.1, f e.2)

/-- Changing the values keeps the names. -/
theorem names_mapValues (f : α → β) (m : Members α) : (m.mapValues f).names = m.names := by
  simp [mapValues, names, Function.comp_def]

/-- The two give every name related values, or neither has it. -/
def Matches (R : α → β → Prop) (m : Members α) (n : Members β) : Prop :=
  ∀ name, Option.Rel R (m.get? name) (n.get? name)

theorem get?_eq_none {m : Members α} {name : String} (h : name ∉ m.names) : m.get? name = none := by
  induction m with
  | nil => rfl
  | cons p rest ih =>
      have hrest : name ≠ p.1 ∧ name ∉ names rest := by simpa [names] using h
      rw [get?_cons, if_neg hrest.1, ih hrest.2]

theorem mem_of_get? {m : Members α} {name : String} {a : α} (h : m.get? name = some a) :
    (name, a) ∈ m := by
  induction m with
  | nil => simp at h
  | cons p rest ih =>
      rw [get?_cons] at h
      split at h
      · next hname =>
          rw [hname, ← Option.some.inj h]
          exact List.mem_cons_self
      · exact List.mem_cons_of_mem _ (ih h)

/-- Where names are distinct, every member is found. -/
theorem get?_of_mem {m : Members α} (hm : m.names.Nodup) {name : String} {a : α}
    (h : (name, a) ∈ m) : m.get? name = some a := by
  induction m with
  | nil => contradiction
  | cons p rest ih =>
      obtain ⟨hp, hrest⟩ : p.1 ∉ names rest ∧ (names rest).Nodup := List.nodup_cons.1 hm
      cases List.mem_cons.1 h with
      | inl h => rw [get?_cons, ← h, if_pos rfl]
      | inr h =>
          have hname : name ≠ p.1 := fun heq => hp (heq ▸ List.mem_map_of_mem h)
          rw [get?_cons, if_neg hname, ih hrest h]

/-- Matching may be checked at the values that both have. -/
theorem Matches.imp {R S : α → β → Prop} {m : Members α} {n : Members β} (h : Matches R m n)
    (himp : ∀ name a b, m.get? name = some a → n.get? name = some b → R a b → S a b) :
    Matches S m n := by
  intro name
  have hrel := h name
  cases hm : m.get? name with
  | none =>
      cases hn : n.get? name with
      | none => exact .none
      | some b => simp [hm, hn] at hrel
  | some a =>
      cases hn : n.get? name with
      | none => simp [hm, hn] at hrel
      | some b =>
          rw [hm, hn, Option.rel_some_some] at hrel
          exact .some (himp name a b hm hn hrel)

/-- In order, distinct members have the values they had. -/
theorem get?_ofList {m : Members α} (hm : m.names.Nodup) (name : String) :
    (OrderedMap.ofList m).get? name = m.get? name := by
  have hfold : ∀ (m : Members α) (s : OrderedMap String α), m.names.Nodup →
      (m.foldl (fun s p => s.insert p.1 p.2) s).get? name = (m.get? name).or (s.get? name) := by
    intro m
    induction m with
    | nil => exact fun s hm => rfl
    | cons p rest ih =>
        intro s hm
        obtain ⟨hp, hrest⟩ : p.1 ∉ names rest ∧ (names rest).Nodup := List.nodup_cons.1 hm
        rw [List.foldl_cons, ih _ hrest, OrderedMap.get?_insert, get?_cons]
        by_cases hname : name = p.1
        · rw [if_pos hname, if_pos hname, get?_eq_none (hname ▸ hp), Option.none_or, Option.some_or]
        · rw [if_neg hname, if_neg hname]
  rw [OrderedMap.ofList, hfold m .empty hm, OrderedMap.get?_empty, Option.or_none]

/-- Distinct members are put in order without loss. -/
theorem inNameOrder_perm {m : Members α} (hm : m.names.Nodup) : m.inNameOrder.Perm m := by
  have hnodup : m.inNameOrder.Nodup := OrderedMap.nodup_entries _
  refine (List.perm_ext_iff_of_nodup hnodup (List.Nodup.of_map Prod.fst hm)).2 fun e => ?_
  obtain ⟨name, a⟩ := e
  rw [inNameOrder, OrderedMap.mem_entries_iff, get?_ofList hm]
  exact ⟨mem_of_get?, get?_of_mem hm⟩

/-- Matching members stand side by side once they are in order. -/
theorem Matches.inNameOrder {R : α → β → Prop} {m : Members α} {n : Members β}
    (h : Matches R m n) (hm : m.names.Nodup) (hn : n.names.Nodup) :
    List.Forall₂ (fun a b => a.1 = b.1 ∧ R a.2 b.2) m.inNameOrder n.inNameOrder := by
  apply OrderedMap.forall₂_entries
  intro name
  rw [get?_ofList hm, get?_ofList hn]
  exact h name

/-- Values may be changed before or after sorting by name. -/
theorem inNameOrder_mapValues (f : α → β) (m : Members α) :
    (m.mapValues f).inNameOrder = m.inNameOrder.mapValues f :=
  congrArg OrderedMap.entries (OrderedMap.ofList_map f m)

end Members

end ProviderTypes
