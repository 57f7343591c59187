import ProviderTypes.Proofs.Registry.Bare

/-!
# ProviderTypes.Proofs.Registry.Admission

Which lists of entries a registry takes.  Two entries agree when a common full
name means a common key and structurally equal containers; a registry admits an
entry when the entry agrees with all it holds.

Under the policy of errors inserting is granted exactly to admitted entries, and
taking entries of another registry is so under either policy.  Both therefore
take a list exactly when the registry admits each entry and any two of them
agree (`Enters.exists_foldlM_iff`): what the growing registry checks step by step
is a condition on pairs, and no order matters.
-/

namespace ProviderTypes

namespace Registry

variable {r r' m s : Registry} {e d : Entry} {es : List Entry} {key : QualifiedName} {c : Container}

/-- A common full name means one key with one definition. -/
def Agree (e d : Entry) : Prop := e.1.fullName = d.1.fullName → e.1 = d.1 ∧ e.2.Same d.2

/-- Any two of the entries agree. -/
def Compatible (es : List Entry) : Prop := ∀ e ∈ es, ∀ d ∈ es, Agree e d

/-- The entry agrees with every entry of the registry. -/
def Admits (r : Registry) (e : Entry) : Prop :=
  ∀ key b, r.bare? key = some b → key.fullName = e.1.fullName → key = e.1 ∧ b = e.2.bare

theorem Agree.refl (e : Entry) : Agree e e := fun _ => ⟨rfl, Container.Same.rfl⟩

theorem Agree.symm (h : Agree e d) : Agree d e := fun hname =>
  ⟨(h hname.symm).1.symm, (h hname.symm).2.symm⟩

/-- An entry is compatible with others when it agrees with each and they are compatible. -/
theorem compatible_cons :
    Compatible (e :: es) ↔ (∀ d ∈ es, Agree e d) ∧ Compatible es := by
  constructor
  · intro h
    refine ⟨fun d hd => ?_, fun a ha d hd => ?_⟩
    · exact h e List.mem_cons_self d (List.mem_cons_of_mem _ hd)
    · exact h a (List.mem_cons_of_mem _ ha) d (List.mem_cons_of_mem _ hd)
  · intro hboth a ha d hd
    obtain ⟨he, hes⟩ := hboth
    cases List.mem_cons.1 ha with
    | inl ha =>
        subst ha
        cases List.mem_cons.1 hd with
        | inl hd => exact hd ▸ Agree.refl _
        | inr hd => exact he d hd
    | inr ha =>
        cases List.mem_cons.1 hd with
        | inl hd => exact hd ▸ (he a ha).symm
        | inr hd => exact hes a ha d hd

/-- Whether entries are compatible depends on nothing but which they are. -/
theorem compatible_congr {ds : List Entry} (h : ∀ e, e ∈ es ↔ e ∈ ds) :
    Compatible es ↔ Compatible ds := by
  unfold Compatible
  simp only [h]

/-- Of compatible entries every one has the last definition of its key. -/
theorem Compatible.lastBare?_eq (h : Compatible es) (he : e ∈ es) :
    lastBare? e.1 es = some e.2.bare := by
  cases hlast : lastBare? e.1 es with
  | none => exact absurd rfl (lastBare?_eq_none_iff.1 hlast e he)
  | some b =>
      obtain ⟨d, hd, hkey, hb⟩ := exists_mem_of_lastBare? hlast
      have hsame : d.2.Same e.2 := (h d hd e he (by rw [hkey])).2
      rw [← hb, hsame]

/-- An empty registry admits every entry. -/
theorem admits_empty (policy : DuplicatePolicy) (e : Entry) : (empty policy).Admits e :=
  fun key b h => by simp at h

/-- A consistent registry admits an entry when no other key owns its full name and its key has
no structurally different definition. -/
theorem admits_iff (h : r.Consistent) :
    r.Admits (key, c) ↔ r.otherOwner? key = none ∧ ∀ d, r.get? key = some d → d.Same c := by
  rw [otherOwner?_eq_none_iff h]
  constructor
  · intro ha
    constructor
    · intro k hk hname
      obtain ⟨b, hb⟩ := mem_keys_iff_bare?.1 hk
      exact (ha k b hb hname).1
    · intro d hd
      exact (ha key d.bare (by rw [bare?, hd]; rfl) rfl).2
  · intro hboth k b hb hname
    obtain ⟨hn, hd⟩ := hboth
    obtain rfl : k = key := hn k (mem_keys_iff_bare?.2 ⟨b, hb⟩) hname
    obtain ⟨d, hg, rfl⟩ := Option.map_eq_some_iff.1 hb
    exact ⟨rfl, hd d hg⟩

/-- Under the policy of errors inserting is granted exactly to admitted entries. -/
theorem exists_insert_iff (h : r.Consistent) (hp : r.policy = .error) :
    (∃ r', r.insert e.1 e.2 = .ok r') ↔ r.Admits e := by
  obtain ⟨key, c⟩ := e
  rw [admits_iff h]
  constructor
  · intro hexists
    obtain ⟨r', hr'⟩ := hexists
    obtain ⟨hn, ⟨-, d, hd, hs⟩ | ⟨-, hd⟩⟩ := insert_cases hr'
    · refine ⟨hn, fun d' hd' => ?_⟩
      rw [hd, Option.some.injEq] at hd'
      rwa [← hd']
    · refine ⟨hn, fun d hg => ?_⟩
      have hover := hd d hg
      rw [hp] at hover
      contradiction
  · intro hboth
    obtain ⟨hn, hd⟩ := hboth
    exact exists_insert_eq_ok hn (Or.inr hd)

/-- Under either policy taking is granted exactly to admitted entries. -/
theorem exists_take_iff (h : r.Consistent) : (∃ r', r.take e.1 e.2 = .ok r') ↔ r.Admits e := by
  obtain ⟨key, c⟩ := e
  rw [admits_iff h]
  constructor
  · intro hexists
    obtain ⟨r', hr'⟩ := hexists
    obtain ⟨hi, hd⟩ := take_eq_ok.1 hr'
    exact ⟨(insert_cases hi).1, hd⟩
  · intro hboth
    obtain ⟨hn, hd⟩ := hboth
    obtain ⟨r', hr'⟩ := exists_insert_eq_ok hn (Or.inr hd)
    exact ⟨r', take_eq_ok.2 ⟨hr', hd⟩⟩

/-- After an admitted entry a registry admits what it admitted before and what agrees with the
entry. -/
theorem admits_of_entered (he : r.Admits e)
    (hb : ∀ key, m.bare? key = if key = e.1 then some e.2.bare else r.bare? key) :
    m.Admits d ↔ r.Admits d ∧ Agree e d := by
  constructor
  · intro hm
    constructor
    · intro key b hkey hname
      by_cases hk : key = e.1
      · have hb' := (he key b hkey (by rw [hk])).2
        exact hm key b (by rw [hb, if_pos hk, hb']) hname
      · exact hm key b (by rw [hb, if_neg hk, hkey]) hname
    · exact fun hname => hm e.1 e.2.bare (by rw [hb, if_pos rfl]) hname
  · intro hboth key b hkey hname
    obtain ⟨hr, hag⟩ := hboth
    rw [hb] at hkey
    by_cases hk : key = e.1
    · rw [if_pos hk, Option.some.injEq] at hkey
      subst hk hkey
      exact hag hname
    · rw [if_neg hk] at hkey
      exact hr key b hkey hname

/-- A way of entering entries that grants exactly the admitted ones takes a list exactly when
each is admitted at the start and any two agree. -/
theorem Enters.exists_foldlM_iff {step : Registry → Entry → Except RegistryError Registry}
    {P : DuplicatePolicy → Prop} (hstep : Enters step)
    (hgrant : ∀ {r e}, r.Consistent → P r.policy → ((∃ r', step r e = .ok r') ↔ r.Admits e))
    (hr : r.Consistent) (hp : P r.policy) :
    (∃ r', es.foldlM step r = .ok r') ↔ (∀ e ∈ es, r.Admits e) ∧ Compatible es := by
  induction es generalizing r with
  | nil => exact ⟨fun _ => ⟨by simp, by simp [Compatible]⟩, fun _ => ⟨r, rfl⟩⟩
  | cons e es ih =>
      -- The entry is granted by `hgrant`, and `ih` speaks of the registry after it.
      have hrest : ∀ m, step r e = .ok m → r.Admits e →
          ((∃ r', es.foldlM step m = .ok r') ↔
            (∀ d ∈ es, r.Admits d ∧ Agree e d) ∧ Compatible es) := by
        intro m hm he
        rw [ih (hstep.consistent hm hr) (by rwa [hstep.policy hm])]
        simp only [admits_of_entered he (hstep.bare? hm)]
      rw [compatible_cons, List.forall_mem_cons]
      constructor
      · intro hexists
        obtain ⟨r', h⟩ := hexists
        obtain ⟨m, hm, h⟩ := foldlM_cons_eq_ok.1 h
        have he : r.Admits e := (hgrant hr hp).1 ⟨m, hm⟩
        obtain ⟨hall, hes⟩ := (hrest m hm he).1 ⟨r', h⟩
        exact ⟨⟨he, fun d hd => (hall d hd).1⟩, fun d hd => (hall d hd).2, hes⟩
      · intro hboth
        obtain ⟨⟨he, hadm⟩, hag, hes⟩ := hboth
        obtain ⟨m, hm⟩ := (hgrant hr hp).2 he
        obtain ⟨r', h⟩ := (hrest m hm he).2 ⟨fun d hd => ⟨hadm d hd, hag d hd⟩, hes⟩
        exact ⟨r', foldlM_cons_eq_ok.2 ⟨m, hm, h⟩⟩

/-! ## merging -/

/-- Taking entries succeeds when each step does. -/
theorem takeAll_eq_ok :
    r.takeAll es = (.ok (), r') ↔ es.foldlM (fun r e => r.take e.1 e.2) r = .ok r' := by
  induction es generalizing r with
  | nil => simp [takeAll, pure, Except.pure]
  | cons e es ih =>
      rw [foldlM_cons_eq_ok, takeAll]
      cases h : r.take e.1 e.2 with
      | error x => simp
      | ok m => simp [ih]

/-- The entries of a consistent registry agree with each other. -/
theorem Consistent.compatible_items (hs : s.Consistent) : Compatible s.items := by
  intro e he d hd hname
  rw [mem_items] at he hd
  have hkey : e.1 = d.1 :=
    hs.eq_of_fullName_eq (mem_keys.2 ⟨_, he⟩) (mem_keys.2 ⟨_, hd⟩) hname
  rw [hkey, hd, Option.some.injEq] at he
  exact ⟨hkey, by rw [he]; exact Container.Same.rfl⟩

/-- A merge succeeds exactly when every entry of the other registry is admitted. -/
theorem exists_merge_iff (hr : r.Consistent) (hs : s.Consistent) :
    (∃ r', r.merge s = (.ok (), r')) ↔ ∀ e ∈ s.items, r.Admits e := by
  simp only [merge, takeAll_eq_ok]
  rw [enters_take.exists_foldlM_iff (P := fun _ => True) (fun h _ => exists_take_iff h) hr trivial]
  exact and_iff_left hs.compatible_items

/-- After a merge each key has the definition of the other registry, or its own. -/
theorem bare?_merge (h : r.merge s = (.ok (), r')) (key : QualifiedName) :
    r'.bare? key = (s.bare? key).or (r.bare? key) := by
  rw [enters_take.bare?_foldlM (takeAll_eq_ok.1 h) key, lastBare?_items]

/-- Taking entries keeps a registry consistent, also where one of them is refused. -/
theorem Consistent.takeAll (hr : r.Consistent) : (r.takeAll es).2.Consistent := by
  induction es generalizing r with
  | nil => exact hr
  | cons e es ih =>
      rw [Registry.takeAll]
      cases h : r.take e.1 e.2 with
      | error x => exact hr
      | ok m => exact ih (hr.insert (take_eq_ok.1 h).1)

/-- A merge keeps the registry consistent. -/
theorem Consistent.merge (hr : r.Consistent) (h : r.merge s = (.ok (), r')) : r'.Consistent := by
  have hall : (r.merge s).2.Consistent := hr.takeAll
  rwa [h] at hall

end Registry

end ProviderTypes
