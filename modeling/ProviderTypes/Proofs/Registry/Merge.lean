import ProviderTypes.Proofs.Registry.History
import Mathlib.Logic.Basic
import Mathlib.Tactic.ByContra

/-!
# ProviderTypes.Proofs.Registry.Merge

Merging is a union that refuses conflicts.  Two registries conflict at a key
(`ConflictsAt`) when both define it differently, or when another key of the
first has its full name.

Taking entries one by one checks each of them against a registry that has grown
already.  As the other registry is consistent, what it gave before never stands
in the way of what it gives next: an entry is refused exactly when the two
registries conflict at its key to begin with (`take_refused_iff`).  So a merge
stops at the first such key, with all entries before it taken.
-/

namespace ProviderTypes

namespace OrderedMap

variable {α β : Type} [Ord α]

/-- What is looked up in two lists is looked up in the first, and then in the second. -/
theorem lookupEntry_append (key : α) (l₁ l₂ : List (α × β)) :
    lookupEntry key (l₁ ++ l₂) = (lookupEntry key l₁).or (lookupEntry key l₂) := by
  induction l₁ with
  | nil => simp [lookupEntry]
  | cons e l₁ ih =>
      obtain ⟨k, v⟩ := e
      rw [List.cons_append, lookupEntry, lookupEntry, ih]
      split <;> simp

/-- Nothing is found exactly for a key that has no entry. -/
theorem lookupEntry_eq_none_iff [Std.TransOrd α] [Std.LawfulEqOrd α] {key : α}
    {entries : List (α × β)} :
    lookupEntry key entries = none ↔ key ∉ entries.map Prod.fst := by
  induction entries with
  | nil => simp [lookupEntry]
  | cons e entries ih =>
      obtain ⟨k, v⟩ := e
      rw [lookupEntry, List.map_cons, List.mem_cons, not_or]
      by_cases hk : key = k
      · simp [hk]
      · have hc : compare key k ≠ .eq := fun h => hk (Std.LawfulEqOrd.eq_of_compare h)
        simp [hc, hk, ih]

/-- The first entries of a map find what the map finds, for their own keys. -/
theorem lookupEntry_prefix [Std.TransOrd α] [Std.LawfulEqOrd α] [DecidableEq α]
    {m : OrderedMap α β} {before after : List (α × β)} (h : m.entries = before ++ after) (key : α) :
    lookupEntry key before = if key ∈ before.map Prod.fst then m.get? key else none := by
  have hget : m.get? key = (lookupEntry key before).or (lookupEntry key after) := by
    rw [get?, h, lookupEntry_append]
  cases hb : lookupEntry key before with
  | none => rw [if_neg (lookupEntry_eq_none_iff.1 hb)]
  | some v =>
      have hmem : key ∈ before.map Prod.fst := by
        by_contra hmem
        rw [lookupEntry_eq_none_iff.2 hmem] at hb
        contradiction
      rw [if_pos hmem, hget, hb, Option.some_or]

end OrderedMap

namespace Registry

variable {a b r r' : Registry} {e : Entry} {es : List Entry} {key : QualifiedName} {c d : Container}
  {x : RegistryError}

/-! ## taking entries -/

/-- Taking stores an entry of a new key, and changes nothing where the key is defined alike. -/
theorem take_cases (h : r.take key c = .ok r') :
    r.get? key = none ∧ r' = r.store key c ∨ ∃ d, r.get? key = some d ∧ d.Same c ∧ r' = r := by
  obtain ⟨hinsert, hsame⟩ := take_eq_ok.1 h
  unfold insert at hinsert
  cases hother : r.otherOwner? key with
  | some owner => simp [hother] at hinsert
  | none =>
      cases hget : r.get? key with
      | none =>
          simp only [hother, hget, Except.ok.injEq] at hinsert
          exact Or.inl ⟨rfl, hinsert.symm⟩
      | some d =>
          have hd : d.Same c := hsame d hget
          simp only [hother, hget, if_pos hd, Except.ok.injEq] at hinsert
          exact Or.inr ⟨d, rfl, hd, hinsert.symm⟩

/-- An entry that is there already is taken without a change. -/
theorem take_eq_self (hr : r.Consistent) (hget : r.get? key = some d) (hsame : d.Same c) :
    r.take key c = .ok r := by
  have hother : r.otherOwner? key = none :=
    (otherOwner?_eq_none_iff hr).2 fun k hk hname =>
      hr.eq_of_fullName_eq hk (mem_keys.2 ⟨d, hget⟩) hname
  unfold take insert
  simp only [hget, hother, if_pos hsame]

/-- A container is taken unless the key has one. -/
theorem get?_take (h : r.take key c = .ok r') (k : QualifiedName) :
    r'.get? k = (r.get? k).or (if k = key then some c else none) := by
  cases take_cases h with
  | inl hnew =>
      obtain ⟨hget, rfl⟩ := hnew
      rw [get?_store]
      by_cases hk : k = key
      · simp [hk, hget]
      · simp [hk]
  | inr hold =>
      obtain ⟨d, hget, -, rfl⟩ := hold
      by_cases hk : k = key
      · simp [hk, hget]
      · simp [hk]

/-- An insertion is refused with an error about its key. -/
theorem key_of_insert_eq_error (h : r.insert key c = .error x) : x.key = key := by
  unfold insert at h
  split at h
  · cases h
    rfl
  · split at h
    · contradiction
    · split at h
      · contradiction
      · split at h
        · contradiction
        · cases h
          rfl

/-- The error of an entry that is refused names its key. -/
theorem key_of_take_eq_error (h : r.take key c = .error x) : x.key = key := by
  unfold take at h
  split at h
  · split at h
    · exact key_of_insert_eq_error h
    · cases h
      rfl
  · exact key_of_insert_eq_error h

/-! ## taking lists of entries -/

/-- After a list of entries each key has what it had before, or its first container there. -/
theorem get?_takeAll (h : r.takeAll es = (.ok (), r')) (k : QualifiedName) :
    r'.get? k = (r.get? k).or (OrderedMap.lookupEntry k es) := by
  rw [takeAll_eq_ok] at h
  induction es generalizing r with
  | nil =>
      cases h
      simp [OrderedMap.lookupEntry]
  | cons e es ih =>
      obtain ⟨key, c⟩ := e
      obtain ⟨m, hm, h⟩ := foldlM_cons_eq_ok.1 h
      rw [ih h, get?_take hm, OrderedMap.lookupEntry, Option.or_assoc]
      by_cases hk : k = key
      · simp [hk]
      · have hc : compare k key ≠ .eq := fun h => hk (Std.LawfulEqOrd.eq_of_compare h)
        simp [hk, hc]

/-- Taking entries fails where all entries before one were taken and that one is refused. -/
theorem takeAll_eq_error :
    r.takeAll es = (.error x, r') ↔
      ∃ before e after, es = before ++ e :: after ∧ r.takeAll before = (.ok (), r') ∧
        r'.take e.1 e.2 = .error x := by
  induction es generalizing r with
  | nil => simp [takeAll]
  | cons e es ih =>
      constructor
      · intro h
        rw [takeAll] at h
        cases hm : r.take e.1 e.2 with
        | error y =>
            simp only [hm, Prod.mk.injEq, Except.error.injEq] at h
            obtain ⟨rfl, rfl⟩ := h
            exact ⟨[], e, es, rfl, rfl, hm⟩
        | ok m =>
            simp only [hm] at h
            obtain ⟨before, f, after, rfl, hbefore, hf⟩ := ih.1 h
            exact ⟨e :: before, f, after, rfl, by rw [takeAll, hm]; exact hbefore, hf⟩
      · intro hexists
        obtain ⟨before, f, after, hes, hbefore, hf⟩ := hexists
        cases before with
        | nil =>
            cases hes
            cases hbefore
            rw [takeAll, hf]
        | cons g before =>
            obtain ⟨rfl, rfl⟩ := List.cons.inj hes
            rw [takeAll] at hbefore ⊢
            cases hm : r.take e.1 e.2 with
            | error y => simp [hm] at hbefore
            | ok m =>
                simp only [hm] at hbefore ⊢
                exact ih.2 ⟨before, f, after, rfl, hbefore, hf⟩

/-- Entries that are there already are taken without a change. -/
theorem takeAll_eq_self (h : ∀ e ∈ es, r.take e.1 e.2 = .ok r) : r.takeAll es = (.ok (), r) := by
  induction es with
  | nil => rfl
  | cons e es ih =>
      rw [List.forall_mem_cons] at h
      rw [takeAll, h.1]
      exact ih h.2

/-! ## conflicts -/

/-- The key has structurally different containers in both registries, or another key of the first
has its full name. -/
def ConflictsAt (a b : Registry) (key : QualifiedName) : Prop :=
  (∃ c d, a.get? key = some c ∧ b.get? key = some d ∧ ¬ c.Same d) ∨
    ∃ other ∈ a.keys, other ≠ key ∧ other.fullName = key.fullName

/-- A registry admits the entries of another where the two do not conflict. -/
theorem admits_iff_not_conflictsAt (ha : a.Consistent) (he : e ∈ b.items) :
    a.Admits e ↔ ¬ ConflictsAt a b e.1 := by
  have hget : b.get? e.1 = some e.2 := mem_items.1 he
  rw [admits_iff ha, otherOwner?_eq_none_iff ha, ConflictsAt, not_or, and_comm]
  apply and_congr
  · constructor
    · intro hsame hexists
      obtain ⟨c, d, hc, hd, hdiffer⟩ := hexists
      rw [hget, Option.some.injEq] at hd
      exact hdiffer (hd ▸ hsame c hc)
    · intro hnone c hc
      by_contra hdiffer
      exact hnone ⟨c, e.2, hc, hget, hdiffer⟩
  · constructor
    · intro hother hexists
      obtain ⟨k, hk, hne, hname⟩ := hexists
      exact hne (hother k hk hname)
    · intro hnone k hk hname
      by_contra hne
      exact hnone ⟨k, hk, hne, hname⟩

/-- A merge succeeds when the registries conflict at no key. -/
theorem merge_eq_ok_iff (ha : a.Consistent) (hb : b.Consistent) :
    (a.merge b).1 = .ok () ↔ ∀ key ∈ b.keys, ¬ ConflictsAt a b key := by
  have hexists : (a.merge b).1 = .ok () ↔ ∃ r, a.merge b = (.ok (), r) := by
    constructor
    · intro h
      exact ⟨(a.merge b).2, Prod.ext h rfl⟩
    · intro hr
      obtain ⟨r, hr⟩ := hr
      rw [hr]
  rw [hexists, exists_merge_iff ha hb, keys, OrderedMap.keys, List.forall_mem_map]
  exact forall₂_congr fun e he => admits_iff_not_conflictsAt ha he

/-- That registries conflict nowhere, for the keys of both and for the keys of each. -/
theorem forall_not_conflictsAt_iff :
    (∀ key ∈ b.keys, ¬ ConflictsAt a b key) ↔
      (∀ key c d, a.get? key = some c → b.get? key = some d → c.Same d) ∧
        ∀ k ∈ a.keys, ∀ l ∈ b.keys, k.fullName = l.fullName → k = l := by
  constructor
  · intro h
    constructor
    · intro key c d hc hd
      by_contra hdiffer
      exact h key (mem_keys.2 ⟨d, hd⟩) (Or.inl ⟨c, d, hc, hd, hdiffer⟩)
    · intro k hk l hl hname
      by_contra hne
      exact h l hl (Or.inr ⟨k, hk, hne, hname⟩)
  · intro hboth key hkey hconflict
    obtain ⟨hsame, hnames⟩ := hboth
    cases hconflict with
    | inl hdiffer =>
        obtain ⟨c, d, hc, hd, hdiffer⟩ := hdiffer
        exact hdiffer (hsame key c d hc hd)
    | inr hother =>
        obtain ⟨k, hk, hne, hname⟩ := hother
        exact hne (hnames k hk key hkey hname)

/-- The condition for a merge does not tell the two registries apart. -/
theorem merge_swap_eq_ok (ha : a.Consistent) (hb : b.Consistent) (h : (a.merge b).1 = .ok ()) :
    (b.merge a).1 = .ok () := by
  rw [merge_eq_ok_iff ha hb, forall_not_conflictsAt_iff] at h
  rw [merge_eq_ok_iff hb ha, forall_not_conflictsAt_iff]
  obtain ⟨hsame, hnames⟩ := h
  exact ⟨fun key c d hc hd => (hsame key d c hd hc).symm,
    fun k hk l hl hname => (hnames l hl k hk hname.symm).symm⟩

/-! ## granted merges -/

/-- A merge that is granted leaves the own container of each key, or that of the other registry. -/
theorem get?_merge (h : a.merge b = (.ok (), r)) (key : QualifiedName) :
    r.get? key = (a.get? key).or (b.get? key) := get?_takeAll h key

/-- A merge that was granted is granted again, and changes nothing. -/
theorem merge_again (ha : a.Consistent) (hb : b.Consistent) (h : a.merge b = (.ok (), r)) :
    r.merge b = (.ok (), r) := by
  apply takeAll_eq_self
  intro e he
  have hget : b.get? e.1 = some e.2 := mem_items.1 he
  have hrget : r.get? e.1 = (a.get? e.1).or (some e.2) := by rw [get?_merge h, hget]
  cases hown : a.get? e.1 with
  | none =>
      rw [hown, Option.none_or] at hrget
      exact take_eq_self (ha.merge h) hrget Container.Same.rfl
  | some c =>
      rw [hown, Option.some_or] at hrget
      have hsame : c.Same e.2 :=
        (forall_not_conflictsAt_iff.1 ((merge_eq_ok_iff ha hb).1 (by rw [h]))).1 e.1 c e.2 hown hget
      exact take_eq_self (ha.merge h) hrget hsame

/-- The registries may be merged the other way round, with an equal result. -/
theorem merge_comm (ha : a.Consistent) (hb : b.Consistent) (h : a.merge b = (.ok (), r)) :
    ∃ r', b.merge a = (.ok (), r') ∧ r'.Same r := by
  have hok : (a.merge b).1 = .ok () := by rw [h]
  have hswapped : b.merge a = (.ok (), (b.merge a).2) :=
    Prod.ext (merge_swap_eq_ok ha hb hok) rfl
  refine ⟨(b.merge a).2, hswapped, same_iff.2 fun key => ?_⟩
  rw [bare?_merge hswapped, bare?_merge h]
  -- Only a key of both could tell the sides apart, and there the definitions are equal.
  cases ha' : a.get? key with
  | none => simp [bare?, ha']
  | some c =>
      cases hb' : b.get? key with
      | none => simp [bare?, ha', hb']
      | some d =>
          have hsame : c.Same d :=
            (forall_not_conflictsAt_iff.1 ((merge_eq_ok_iff ha hb).1 hok)).1 key c d ha' hb'
          simp only [bare?, ha', hb', Option.map_some, Option.some_or]
          exact congrArg some hsame

/-! ## refused merges -/

/-- Entries of a registry without conflicts are taken, and then an entry is refused exactly when
the registries conflict at its key to begin with. -/
theorem take_refused_iff {before after : List Entry} (ha : a.Consistent) (hb : b.Consistent)
    (hitems : b.items = before ++ e :: after) (h : a.takeAll before = (.ok (), r)) :
    (∃ x, r.take e.1 e.2 = .error x) ↔ ConflictsAt a b e.1 := by
  have hr : r.Consistent := by
    have hall : (a.takeAll before).2.Consistent := ha.takeAll
    rwa [h] at hall
  have htaken : (∃ r', r.take e.1 e.2 = .ok r') ↔ a.Admits e := by
    have hcompatible : Compatible (before ++ [e]) := by
      intro x hx y hy
      have hmem : ∀ z ∈ before ++ [e], z ∈ b.items := by
        intro z hz
        rw [hitems, List.mem_append, List.mem_cons]
        simp only [List.mem_append, List.mem_singleton] at hz
        exact hz.imp_right Or.inl
      exact hb.compatible_items x (hmem x hx) y (hmem y hy)
    have hsplit : (∃ r', (before ++ [e]).foldlM (fun r e => r.take e.1 e.2) a = .ok r') ↔
        ∃ r', r.take e.1 e.2 = .ok r' := by
      simp only [List.foldlM_append, takeAll_eq_ok.1 h, bind, Except.bind, List.foldlM_cons,
        List.foldlM_nil, pure, Except.pure]
      cases r.take e.1 e.2 <;> simp
    have hadmits : ∀ d ∈ before, a.Admits d :=
      ((enters_take.exists_foldlM_iff (P := fun _ => True) (fun h _ => exists_take_iff h) ha
        trivial).1 ⟨r, takeAll_eq_ok.1 h⟩).1
    rw [← hsplit, enters_take.exists_foldlM_iff (P := fun _ => True)
      (fun h _ => exists_take_iff h) ha trivial]
    simp only [List.forall_mem_append, List.forall_mem_singleton, hcompatible, and_true]
    exact and_iff_right hadmits
  have he : e ∈ b.items := by simp [hitems]
  rw [← not_iff_not, ← admits_iff_not_conflictsAt ha he, ← htaken]
  cases r.take e.1 e.2 <;> simp

/-- A merge that is refused names the first key of the other registry at which the two conflict, and
leaves its own entries and those that the other registry has before that key. -/
theorem merge_eq_error (ha : a.Consistent) (hb : b.Consistent) (h : a.merge b = (.error x, r)) :
    ∃ before after, b.keys = before ++ x.key :: after ∧ ConflictsAt a b x.key ∧
      (∀ key ∈ before, ¬ ConflictsAt a b key) ∧
      ∀ key, r.get? key = (a.get? key).or (if key ∈ before then b.get? key else none) := by
  obtain ⟨before, e, after, hitems, hbefore, he⟩ := takeAll_eq_error.1 h
  have hkey : x.key = e.1 := key_of_take_eq_error he
  refine ⟨before.map Prod.fst, after.map Prod.fst, ?_, ?_, ?_, ?_⟩
  · change b.items.map Prod.fst = _
    rw [hitems, hkey, List.map_append, List.map_cons]
  · rw [hkey]
    exact (take_refused_iff ha hb hitems hbefore).1 ⟨x, he⟩
  · rw [List.forall_mem_map]
    intro d hd
    have hmem : d ∈ b.items := by
      rw [hitems]
      exact List.mem_append_left _ hd
    rw [← admits_iff_not_conflictsAt ha hmem]
    exact ((enters_take.exists_foldlM_iff (P := fun _ => True) (fun h _ => exists_take_iff h) ha
      trivial).1 ⟨r, takeAll_eq_ok.1 hbefore⟩).1 d hd
  · intro key
    rw [get?_takeAll hbefore, OrderedMap.lookupEntry_prefix hitems]
    rfl

/-- Merging two registries, whatever histories they have.  The merge is granted exactly when no key
of both has different definitions and no two keys of the one and the other share a full name.  It
then leaves the entries of both, the own ones where both have a key; it can be repeated without
effect; and it is granted the other way round, with an equal result.  Otherwise it names the first
key in the order of the other registry that conflicts, and leaves the own entries and those before
that key. -/
theorem merge_is_union (p q : DuplicatePolicy) (history other : List Operation) :
    let a := after history (empty p)
    let b := after other (empty q)
    let merged := (a.merge b).2
    ((a.merge b).1 = .ok () ↔
      (∀ key c d, a.get? key = some c → b.get? key = some d → c.Same d) ∧
        ∀ k ∈ a.keys, ∀ l ∈ b.keys, k.fullName = l.fullName → k = l) ∧
      ((a.merge b).1 = .ok () →
        (∀ key, merged.get? key = (a.get? key).or (b.get? key)) ∧
          merged.merge b = (.ok (), merged) ∧
          ∃ swapped, b.merge a = (.ok (), swapped) ∧ swapped.Same merged) ∧
      ∀ x, (a.merge b).1 = .error x →
        ∃ before after, b.keys = before ++ x.key :: after ∧ ConflictsAt a b x.key ∧
          (∀ key ∈ before, ¬ ConflictsAt a b key) ∧
          ∀ key, merged.get? key = (a.get? key).or (if key ∈ before then b.get? key else none) := by
  intro a b merged
  have ha : a.Consistent := consistent_after history (consistent_empty p)
  have hb : b.Consistent := consistent_after other (consistent_empty q)
  refine ⟨?_, fun hok => ?_, fun x hx => ?_⟩
  · rw [merge_eq_ok_iff ha hb, forall_not_conflictsAt_iff]
  · have h : a.merge b = (.ok (), merged) := Prod.ext hok rfl
    exact ⟨get?_merge h, merge_again ha hb h, merge_comm ha hb h⟩
  · exact merge_eq_error ha hb (Prod.ext hx rfl)

end Registry

end ProviderTypes
