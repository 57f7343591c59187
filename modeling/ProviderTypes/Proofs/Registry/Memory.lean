import ProviderTypes.Proofs.Registry.Merge

/-!
# ProviderTypes.Proofs.Registry.Memory

What a registry remembers of its history.  An operation that is refused leaves no
trace, and none removes a key (`mem_keys_after`), so a registry is what the granted
operations make of it (`insertAll_granted`).

1. Of the containers that insertions were granted for a key, a registry has the
   first one under the policy of errors (`get?_insertAll`), and the last one, up to
   metadata, under the policy of overwriting (`rel_get?_insertAll`).
2. Beside that a key is refused only while another key has its full name
   (`NameTaken`).
3. Where every insertion is granted, as it is exactly for compatible entries, their
   order does not show in the registry (`insertAll_confluent`).
-/

namespace ProviderTypes

namespace Registry

variable {r r' : Registry} {e : Entry} {es es' : List Entry} {key : QualifiedName}
  {c d : Container} {x : RegistryError}

/-! ## refusals -/

/-- The error names another key that has the full name. -/
def NameTaken (r : Registry) (key : QualifiedName) (x : RegistryError) : Prop :=
  ∃ owner ∈ r.keys, owner ≠ key ∧ owner.fullName = key.fullName ∧ x = .sharedFullName owner key

/-- The other owner of a full name is a key that has it too. -/
theorem otherOwner?_eq_some_iff (hr : r.Consistent) {owner : QualifiedName} :
    r.otherOwner? key = some owner ↔
      owner ∈ r.keys ∧ owner ≠ key ∧ owner.fullName = key.fullName := by
  unfold otherOwner?
  rw [Option.filter_eq_some_iff, hr.owner_iff, decide_eq_true_iff, and_assoc, and_comm (a := _ = _)]

/-- A full name is taken exactly when it has another owner, which the error names. -/
theorem nameTaken_iff (hr : r.Consistent) :
    r.NameTaken key x ↔
      ∃ owner, r.otherOwner? key = some owner ∧ x = .sharedFullName owner key := by
  simp only [otherOwner?_eq_some_iff hr, NameTaken, and_assoc]

/-- Replacing is refused only for a full name that another key has. -/
theorem replace_eq_error_iff (hr : r.Consistent) :
    r.replace key c = .error x ↔ r.NameTaken key x := by
  rw [nameTaken_iff hr]
  unfold replace
  cases r.otherOwner? key with
  | none => simp
  | some owner => simp [eq_comm]

/-- Under the policy of overwriting the same holds of inserting. -/
theorem insert_eq_error_iff (hr : r.Consistent) (hp : r.policy = .overwrite) :
    r.insert key c = .error x ↔ r.NameTaken key x := by
  rw [nameTaken_iff hr]
  unfold insert
  cases r.otherOwner? key with
  | some owner => simp [eq_comm]
  | none =>
      cases r.get? key with
      | none => simp
      | some d => by_cases hd : d.Same c <;> simp [hd, hp]

/-- Under the policy of errors a key that is there is granted its own container only. -/
theorem exists_insert_iff_same (hr : r.Consistent) (hp : r.policy = .error)
    (hget : r.get? key = some d) : (∃ r', r.insert key c = .ok r') ↔ d.Same c := by
  have hother : r.otherOwner? key = none :=
    (otherOwner?_eq_none_iff hr).2 fun k hk hname =>
      hr.eq_of_fullName_eq hk (mem_keys.2 ⟨d, hget⟩) hname
  have hadmits := (exists_insert_iff (e := (key, c)) hr hp).trans (admits_iff hr)
  rw [hadmits, hget]
  simp [hother]

/-! ## keys -/

/-- Taking entries removes no key, also where it stops. -/
theorem mem_keys_takeAll (hkey : key ∈ r.keys) : key ∈ (r.takeAll es).2.keys := by
  induction es generalizing r with
  | nil => exact hkey
  | cons e es ih =>
      rw [takeAll]
      cases h : r.take e.1 e.2 with
      | error x => exact hkey
      | ok m => exact ih ((mem_keys_insert (take_eq_ok.1 h).1).2 (Or.inr hkey))

/-- No operation removes a key, granted or refused. -/
theorem mem_keys_perform (op : Operation) (hkey : key ∈ r.keys) : key ∈ (perform op r).keys := by
  cases op with
  | insert other c =>
      rw [perform]
      cases h : r.insert other c with
      | error x => exact hkey
      | ok m => exact (mem_keys_insert h).2 (Or.inr hkey)
  | replace other c =>
      rw [perform]
      cases h : r.replace other c with
      | error x => exact hkey
      | ok m =>
          rw [(replace_eq_ok.1 h).2]
          exact mem_keys_store.2 (Or.inr hkey)
  | merge policy history =>
      rw [perform]
      exact mem_keys_takeAll hkey

/-- No history removes a key. -/
theorem mem_keys_after (history : List Operation) (hkey : key ∈ r.keys) :
    key ∈ (after history r).keys := by
  induction history generalizing r with
  | nil =>
      rw [after]
      exact hkey
  | cons op history ih =>
      rw [after]
      exact ih (mem_keys_perform op hkey)

/-! ## granted insertions -/

/-- Insert all entries in order, up to the first that is refused. -/
def insertAll (r : Registry) (es : List Entry) : Except RegistryError Registry :=
  es.foldlM (fun r e => r.insert e.1 e.2) r

/-- The history that inserts these entries in order and goes on after refusals. -/
def insertions (es : List Entry) : List Operation := es.map fun e => .insert e.1 e.2

/-- The entries that are granted in that history. -/
def granted : List Entry → Registry → List Entry
  | [], _ => []
  | e :: es, r =>
    match r.insert e.1 e.2 with
    | .ok r' => e :: granted es r'
    | .error _ => granted es r

/-- The containers of a key among entries, in order. -/
def containersOf (key : QualifiedName) (es : List Entry) : List Container :=
  (es.filter fun e => e.1 = key).map Prod.snd

theorem containersOf_cons : containersOf key (e :: es) =
    if e.1 = key then e.2 :: containersOf key es else containersOf key es := by
  by_cases h : e.1 = key <;> simp [containersOf, h]

/-- A registry is what the granted insertions alone would make of it. -/
theorem insertAll_granted (es : List Entry) (r : Registry) :
    r.insertAll (granted es r) = .ok (after (insertions es) r) := by
  induction es generalizing r with
  | nil =>
      rw [insertions, List.map_nil, after]
      rfl
  | cons e es ih =>
      rw [insertions, List.map_cons, after, perform, granted]
      cases h : r.insert e.1 e.2 with
      | error x => exact ih r
      | ok m => exact foldlM_cons_eq_ok.2 ⟨m, h, ih m⟩

theorem policy_after_insertions (es : List Entry) (r : Registry) :
    (after (insertions es) r).policy = r.policy :=
  enters_insert.policy_foldlM (insertAll_granted es r)

/-! ## the first container and the last -/

/-- Under the policy of errors a granted insertion changes no container that is there. -/
theorem get?_insert_of_error (hp : r.policy = .error) (h : r.insert key c = .ok r')
    (k : QualifiedName) : r'.get? k = (r.get? k).or (if k = key then some c else none) := by
  have hsame : ∀ d, r.get? key = some d → d.Same c := by
    obtain ⟨-, ⟨-, d, hd, hs⟩ | ⟨-, hover⟩⟩ := insert_cases h
    · simp [hd, hs]
    · exact fun d hd => absurd (hp.symm.trans (hover d hd)) (by decide)
  exact get?_take (take_eq_ok.2 ⟨h, hsame⟩) k

/-- Under the policy of errors a key keeps what it had, or the first container it is granted. -/
theorem get?_insertAll (hp : r.policy = .error) (h : r.insertAll es = .ok r')
    (key : QualifiedName) : r'.get? key = (r.get? key).or (containersOf key es).head? := by
  induction es generalizing r with
  | nil =>
      cases h
      simp [containersOf]
  | cons e es ih =>
      obtain ⟨m, hm, h⟩ := foldlM_cons_eq_ok.1 h
      rw [ih ((policy_of_insert hm).trans hp) h, get?_insert_of_error hp hm, containersOf_cons,
        Option.or_assoc]
      by_cases hk : e.1 = key
      · simp [hk]
      · simp [hk, Ne.symm hk]

/-- The last container for a key is the last of those that were given for it, up to metadata. -/
theorem lastBare?_eq (key : QualifiedName) (es : List Entry) :
    lastBare? key es = (containersOf key es).getLast?.map Container.bare := by
  induction es with
  | nil => rfl
  | cons e es ih =>
      rw [lastBare?, ih, containersOf_cons]
      by_cases hk : e.1 = key
      · rw [if_pos hk, if_pos hk.symm, List.getLast?_cons]
        cases (containersOf key es).getLast? <;> simp
      · simp [hk, Ne.symm hk]

/-- Insertions that are all granted leave the last container for each key, up to metadata. -/
theorem bare?_insertAll {policy : DuplicatePolicy} (h : (empty policy).insertAll es = .ok r)
    (key : QualifiedName) : r.bare? key = lastBare? key es := by
  have hlast := enters_insert.bare?_foldlM h key
  rwa [bare?_empty, Option.or_none] at hlast

/-- Under either policy a key has the last container it is granted, up to metadata. -/
theorem rel_get?_insertAll {policy : DuplicatePolicy} (h : (empty policy).insertAll es = .ok r)
    (key : QualifiedName) :
    Option.Rel Container.Same (r.get? key) (containersOf key es).getLast? := by
  have hbare : (r.get? key).map Container.bare =
      (containersOf key es).getLast?.map Container.bare :=
    (bare?_insertAll h key).trans (lastBare?_eq key es)
  cases hget : r.get? key <;> cases hgiven : (containersOf key es).getLast? <;>
    simp_all [Container.Same]

/-! ## what a registry remembers -/

/-- What a registry remembers, of any history and of a history of insertions.  An insertion or a
replacement that is refused changes nothing, and no key is ever removed.  A replacement is refused
only for a full name that another key has, and else gives its key its container and no other.  Among
insertions under the policy of errors, a key has the first container that it was granted, and is
granted only what is structurally equal to that; under the policy of overwriting it has the last one
that it was granted, up to metadata, and is refused only for a full name that another key has. -/
theorem remembers (policy : DuplicatePolicy) (history : List Operation) (es : List Entry) :
    let r := after history (empty policy)
    let inserted := after (insertions es) (empty policy)
    let given := fun key => containersOf key (granted es (empty policy))
    (∀ key c x, r.insert key c = .error x → perform (.insert key c) r = r) ∧
      (∀ key c x, r.replace key c = .error x → perform (.replace key c) r = r) ∧
      (∀ more, ∀ key ∈ r.keys, key ∈ (after more r).keys) ∧
      (∀ key c x, r.replace key c = .error x ↔ r.NameTaken key x) ∧
      (∀ key c r', r.replace key c = .ok r' → perform (.replace key c) r = r' ∧
        ∀ k, r'.get? k = if k = key then some c else r.get? k) ∧
      (policy = .error → ∀ key, inserted.get? key = (given key).head? ∧
        ∀ d c, inserted.get? key = some d →
          ((∃ r', inserted.insert key c = .ok r') ↔ d.Same c)) ∧
      (policy = .overwrite → ∀ key,
        Option.Rel Container.Same (inserted.get? key) (given key).getLast? ∧
          ∀ c x, inserted.insert key c = .error x ↔ inserted.NameTaken key x) := by
  intro r inserted given
  have hr : r.Consistent := consistent_after history (consistent_empty policy)
  have hinserted : inserted.Consistent := consistent_after _ (consistent_empty policy)
  have hp : inserted.policy = policy := policy_after_insertions es (empty policy)
  have hgranted : (empty policy).insertAll (granted es (empty policy)) = .ok inserted :=
    insertAll_granted es (empty policy)
  refine ⟨?_, ?_, ?_, ?_, ?_, ?_, ?_⟩
  · intro key c x h
    rw [perform, h, orStay]
  · intro key c x h
    rw [perform, h, orStay]
  · exact fun more key hkey => mem_keys_after more hkey
  · exact fun key c x => replace_eq_error_iff hr
  · intro key c r' h
    obtain ⟨-, hstore⟩ := replace_eq_ok.1 h
    exact ⟨by rw [perform, h, orStay], fun k => by rw [hstore, get?_store]⟩
  · intro herror key
    have hget : inserted.get? key = (given key).head? := get?_insertAll herror hgranted key
    exact ⟨hget, fun d c hd => exists_insert_iff_same hinserted (hp.trans herror) hd⟩
  · intro hover key
    exact ⟨rel_get?_insertAll hgranted key,
      fun c x => insert_eq_error_iff hinserted (hp.trans hover)⟩

/-- A record of one field with this description. -/
def annotated (description : String) : Container :=
  .record ⟨[{ name := "a", value := .str, metadata := { description := some description } }],
    by simp⟩

/-- The key `x` is granted two equal records.  A wrapper in their place is refused under the policy
of errors only, and the key `("", "x")` under either policy. -/
theorem remembers_first_and_last :
    let x : QualifiedName := ⟨none, "x"⟩
    let other : QualifiedName := ⟨some "", "x"⟩
    let es : List Entry :=
      [(x, annotated "first"), (x, annotated "second"), (x, .newtype .bool), (other, .unit)]
    let strict := after (insertions es) (empty .error)
    let lenient := after (insertions es) (empty .overwrite)
    perform (.insert x (.newtype .bool)) strict = strict ∧
      x ∈ (after [.insert x (.newtype .bool), .replace x .unit] strict).keys ∧
      strict.replace other .unit = .error (.sharedFullName x other) ∧
      perform (.replace other .unit) strict = strict ∧
      (∃ r, strict.replace x .unit = .ok r ∧ r.get? x = some .unit) ∧
      strict.get? x = some (annotated "first") ∧
      (∃ r, strict.insert x (annotated "second") = .ok r) ∧
      (¬ ∃ r, strict.insert x (.newtype .bool) = .ok r) ∧
      Option.Rel Container.Same (lenient.get? x) (some (.newtype .bool)) ∧
      lenient.insert other .unit = .error (.sharedFullName x other) := by
  intro x other es strict lenient
  obtain ⟨hkept, hrefused, hkeys, htaken, hreplaced, herror, -⟩ :=
    remembers .error (insertions es) es
  obtain ⟨-, -, -, -, -, -, hover⟩ := remembers .overwrite [] es
  have hother : strict.replace other .unit = .error (.sharedFullName x other) :=
    (htaken _ _ _).2 ⟨x, by decide +kernel, by decide, by decide, rfl⟩
  have hx : strict.replace x .unit = .ok (strict.store x .unit) :=
    replace_eq_ok.2 ⟨by decide +kernel, rfl⟩
  have hfirst : strict.get? x = some (annotated "first") :=
    (herror rfl x).1.trans (by decide +kernel)
  have hlast := (hover rfl x).1
  have hgranted : (containersOf x (granted es (empty .overwrite))).getLast? =
      some (.newtype .bool) := by decide +kernel
  rw [hgranted] at hlast
  have hconflict : ¬ ∃ r, strict.insert x (.newtype .bool) = .ok r := by
    rw [(herror rfl x).2 _ _ hfirst]
    decide +kernel
  have hsame : perform (.insert x (.newtype .bool)) strict = strict := by
    cases h : strict.insert x (.newtype .bool) with
    | ok m => exact absurd ⟨m, h⟩ hconflict
    | error e => exact hkept _ _ _ h
  refine ⟨hsame, hkeys _ _ (by decide +kernel), hother, hrefused _ _ _ hother, ⟨_, hx, ?_⟩, hfirst,
    ?_, hconflict, hlast, ?_⟩
  · rw [(hreplaced _ _ _ hx).2, if_pos rfl]
  · exact ((herror rfl x).2 _ _ hfirst).2 (by decide +kernel)
  · exact ((hover rfl other).2 _ _).2 ⟨x, by decide +kernel, by decide, by decide, rfl⟩

/-! ## the order of insertions -/

/-- Under the policy of errors all entries are granted exactly when they are compatible. -/
theorem exists_insertAll_iff : (∃ r, (empty .error).insertAll es = .ok r) ↔ Compatible es := by
  have hadmits : ∀ e ∈ es, (empty .error).Admits e := fun e _ => admits_empty .error e
  unfold insertAll
  rw [enters_insert.exists_foldlM_iff (P := fun policy => policy = .error) exists_insert_iff
    (consistent_empty .error) rfl]
  exact and_iff_right hadmits

/-- Compatibility does not depend on the order. -/
theorem compatible_perm (hperm : es.Perm es') : Compatible es ↔ Compatible es' :=
  compatible_congr fun _ => hperm.mem_iff

/-- Compatible entries give a key the same definition in every order. -/
theorem Compatible.lastBare?_perm (h : Compatible es) (hperm : es.Perm es')
    (key : QualifiedName) : lastBare? key es = lastBare? key es' := by
  cases hlast : lastBare? key es with
  | none =>
      rw [lastBare?_eq_none_iff] at hlast
      exact (lastBare?_eq_none_iff.2 fun e he => hlast e (hperm.mem_iff.2 he)).symm
  | some b =>
      obtain ⟨e, he, rfl, rfl⟩ := exists_mem_of_lastBare? hlast
      exact (((compatible_perm hperm).1 h).lastBare?_eq (hperm.mem_iff.1 he)).symm

/-- Insertions under the policy of errors, in any order.  All of them are granted exactly when any
two entries with one full name have one key and structurally equal containers, and so in every order
or in none.  The registry then has the keys of the entries, each with a container that is
structurally equal to those that were given for it.  In every other order the registry is equal: it
lists the same keys, and with these the same containers up to metadata. -/
theorem insertAll_confluent (es : List Entry) :
    ((∃ r, (empty .error).insertAll es = .ok r) ↔
        ∀ e ∈ es, ∀ d ∈ es, e.1.fullName = d.1.fullName → e.1 = d.1 ∧ e.2.Same d.2) ∧
      (∀ r, (empty .error).insertAll es = .ok r →
        (∀ key, key ∈ r.keys ↔ key ∈ es.map Prod.fst) ∧
          ∀ e ∈ es, ∃ c, r.get? e.1 = some c ∧ c.Same e.2) ∧
      ∀ es', es.Perm es' →
        ((∃ r, (empty .error).insertAll es = .ok r) ↔
            ∃ r, (empty .error).insertAll es' = .ok r) ∧
          ∀ r, (empty .error).insertAll es = .ok r →
            ∃ r', (empty .error).insertAll es' = .ok r' ∧ r.Same r' ∧ r.keys = r'.keys ∧
              r.items.map (fun e => (e.1, e.2.bare)) = r'.items.map fun e => (e.1, e.2.bare) := by
  refine ⟨exists_insertAll_iff, fun r hr => ⟨fun key => ?_, fun e he => ?_⟩,
    fun es' hperm => ⟨?_, fun r hr => ?_⟩⟩
  · have hkeys : key ∈ r.keys ↔ key ∈ es.map Prod.fst ∨ key ∈ (empty .error).keys :=
      enters_insert.mem_keys_foldlM hr
    have hnone : key ∉ (empty .error).keys := by simp [mem_keys_iff_bare?]
    rwa [or_iff_left hnone] at hkeys
  · have hcompatible : Compatible es := exists_insertAll_iff.1 ⟨r, hr⟩
    rw [← bare?_eq_some_iff, bare?_insertAll hr, hcompatible.lastBare?_eq he]
  · rw [exists_insertAll_iff, exists_insertAll_iff, compatible_perm hperm]
  · have hcompatible : Compatible es := exists_insertAll_iff.1 ⟨r, hr⟩
    obtain ⟨r', hr'⟩ := exists_insertAll_iff.2 ((compatible_perm hperm).1 hcompatible)
    have hsame : r.Same r' := by
      rw [same_iff]
      intro key
      rw [bare?_insertAll hr, bare?_insertAll hr', hcompatible.lastBare?_perm hperm]
    have hkeys : r.keys = r'.keys := by
      have hfst := congrArg (List.map Prod.fst) hsame
      simpa [bareItems, keys, OrderedMap.keys, items, Function.comp_def] using hfst
    exact ⟨r', hr', hsame, hkeys, hsame⟩

/-- Three entries, two of them equal up to metadata, and the same in another order.  The registries
are equal, although each remembers the description that it was given first. -/
theorem insertAll_confluent_described :
    let x : QualifiedName := ⟨none, "x"⟩
    let y : QualifiedName := ⟨some "a", "y"⟩
    let es : List Entry := [(x, annotated "first"), (y, .unit), (x, annotated "second")]
    let turned : List Entry := [(y, .unit), (x, annotated "second"), (x, annotated "first")]
    es.Perm turned ∧
      ∃ r r', (empty .error).insertAll es = .ok r ∧ (empty .error).insertAll turned = .ok r' ∧
        r.Same r' ∧ r.keys = r'.keys ∧
        r.get? x = some (annotated "first") ∧ r'.get? x = some (annotated "second") := by
  intro x y es turned
  have hperm : es.Perm turned := by decide +kernel
  obtain ⟨hgranted, -, horder⟩ := insertAll_confluent es
  obtain ⟨r, hr⟩ := hgranted.2 (by decide +kernel)
  obtain ⟨r', hr', hsame, hkeys, -⟩ := (horder turned hperm).2 r hr
  refine ⟨hperm, r, r', hr, hr', hsame, hkeys, ?_, ?_⟩
  · exact (get?_insertAll rfl hr x).trans (by decide +kernel)
  · exact (get?_insertAll rfl hr' x).trans (by decide +kernel)

end Registry

end ProviderTypes
