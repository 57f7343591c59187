import ProviderTypes.Proofs.Build.Script
import ProviderTypes.Proofs.Registry.Admission

/-!
# ProviderTypes.Proofs.Registry.Gather

Several scripts, each played on a registry of its own, and all these merged
(`Registry.gather`), against the same scripts played one after the other on one
registry.

Whatever is gathered can be played in sequence, with the same result up to
metadata (`exists_play_of_gather`).  The registry that is merged at the end owns
all full names at once, so none can be refused in sequence; and as a merge never
changes a definition, under the policy of errors no definition is refused either.
Under that policy the converse holds as well (`exists_gather_of_below`): whatever
lies below one consistent registry can be gathered.
-/

namespace ProviderTypes

namespace Registry

variable {r r' m f s : Registry} {e : Entry} {es : List Entry} {key : QualifiedName} {b : Container}
  {policy : DuplicatePolicy}

/-! ## registries below another -/

/-- Every definition of the one is a definition of the other, up to metadata. -/
def Below (r s : Registry) : Prop := ∀ key b, r.bare? key = some b → s.bare? key = some b

/-- Every registry has what the empty one has. -/
theorem below_empty (policy : DuplicatePolicy) (s : Registry) : (empty policy).Below s :=
  fun key b h => by simp at h

theorem Below.mem_keys (h : r.Below s) (hkey : key ∈ r.keys) : key ∈ s.keys := by
  obtain ⟨b, hb⟩ := mem_keys_iff_bare?.1 hkey
  exact mem_keys_iff_bare?.2 ⟨b, h key b hb⟩

/-- A registry below a consistent one admits the entries of that one. -/
theorem Below.admits (h : r.Below s) (hs : s.Consistent) (he : s.bare? e.1 = some e.2.bare) :
    r.Admits e := by
  intro key b hb hname
  have hb' : s.bare? key = some b := h key b hb
  have hkey : key = e.1 :=
    hs.eq_of_fullName_eq (mem_keys_iff_bare?.2 ⟨b, hb'⟩) (mem_keys_iff_bare?.2 ⟨_, he⟩) hname
  rw [hkey, he, Option.some.injEq] at hb'
  exact ⟨hkey, hb'.symm⟩

/-- A merge takes the entries of a registry that lies below a consistent one together with its
own. -/
theorem Below.exists_merge (hr : r.Below s) (hf : f.Below s) (hs : s.Consistent)
    (hrc : r.Consistent) (hfc : f.Consistent) :
    ∃ r', r.merge f = (.ok (), r') ∧ r'.Below s := by
  have hadmits : ∀ e ∈ f.items, r.Admits e := by
    intro e he
    refine hr.admits hs (hf e.1 e.2.bare ?_)
    rw [bare?, mem_items.1 he]
    rfl
  obtain ⟨r', hr'⟩ := (exists_merge_iff hrc hfc).2 hadmits
  refine ⟨r', hr', fun key b hb => ?_⟩
  rw [bare?_merge hr', Option.or_eq_some_iff] at hb
  cases hb with
  | inl hb => exact hf key b hb
  | inr hb => exact hr key b hb.2

/-- A merge changes no definition. -/
theorem below_of_merge (hr : r.Consistent) (hf : f.Consistent) (h : r.merge f = (.ok (), r')) :
    r.Below r' := by
  intro key b hb
  rw [bare?_merge h]
  cases hfb : f.bare? key with
  | none => simpa using hb
  | some b' =>
      obtain ⟨c, hget, hc⟩ := Option.map_eq_some_iff.1 hfb
      have hadmits : r.Admits (key, c) :=
        (exists_merge_iff hr hf).1 ⟨r', h⟩ (key, c) (mem_items.2 hget)
      have hbc : b = c.bare := (hadmits key b hb rfl).2
      rw [Option.some_or, ← hc, hbc]

/-! ## inserting below a registry -/

/-- Inserting is granted wherever all keys together are keys of one consistent registry, under the
policy of errors if it has all the definitions too. -/
theorem exists_insertAll (hs : s.Consistent) (hr : r.Consistent)
    (hkeys : ∀ key ∈ r.keys, key ∈ s.keys) (hes : ∀ e ∈ es, e.1 ∈ s.keys)
    (hdef : r.policy = .error → r.Below s ∧ ∀ e ∈ es, s.bare? e.1 = some e.2.bare) :
    ∃ r', es.foldlM (fun r e => r.insert e.1 e.2) r = .ok r' := by
  induction es generalizing r with
  | nil => exact ⟨r, rfl⟩
  | cons e es ih =>
      rw [List.forall_mem_cons] at hes
      have hname : r.otherOwner? e.1 = none :=
        (otherOwner?_eq_none_iff hr).2 fun k hk hname =>
          hs.eq_of_fullName_eq (hkeys k hk) hes.1 hname
      have hsame : r.policy = .overwrite ∨ ∀ d, r.get? e.1 = some d → d.Same e.2 := by
        cases hp : r.policy with
        | overwrite => exact Or.inl rfl
        | error =>
            right
            intro d hd
            obtain ⟨hbelow, hall⟩ := hdef hp
            have hb : s.bare? e.1 = some d.bare := hbelow e.1 d.bare (by rw [bare?, hd]; rfl)
            rw [hall e List.mem_cons_self, Option.some.injEq] at hb
            exact hb.symm
      obtain ⟨m, hm⟩ := exists_insert_eq_ok hname hsame
      have hkeysm : ∀ key ∈ m.keys, key ∈ s.keys := by
        intro key hkey
        cases (mem_keys_insert hm).1 hkey with
        | inl h => rw [h]; exact hes.1
        | inr h => exact hkeys key h
      have hdefm : m.policy = .error → m.Below s ∧ ∀ d ∈ es, s.bare? d.1 = some d.2.bare := by
        intro hp
        rw [policy_of_insert hm] at hp
        obtain ⟨hbelow, hall⟩ := hdef hp
        rw [List.forall_mem_cons] at hall
        refine ⟨fun key b hb => ?_, hall.2⟩
        rw [bare?_insert hm] at hb
        by_cases hkey : key = e.1
        · rw [if_pos hkey] at hb
          rw [hkey, hall.1, hb]
        · rw [if_neg hkey] at hb
          exact hbelow key b hb
      obtain ⟨r', hr'⟩ := ih (hr.insert hm) hkeysm hes.2 hdefm
      exact ⟨r', foldlM_cons_eq_ok.2 ⟨m, hm, hr'⟩⟩

/-! ## gathering -/

/-- Play each script on a registry of its own, and merge all of these in order. -/
def gather (policy : DuplicatePolicy) (r : Registry) : List Script → Except ExportError Registry
  | [] => .ok r
  | script :: rest =>
    match (empty policy).play script with
    | (.error e, _) => .error e
    | (.ok (), filled) =>
      match r.merge filled with
      | (.error e, _) => .error (.registry e)
      | (.ok (), r') => gather policy r' rest

/-- The first script is played on its own and merged before the others. -/
theorem gather_cons_eq_ok {script : Script} {rest : List Script} :
    gather policy r (script :: rest) = .ok r' ↔
      ∃ f m, (empty policy).play script = (.ok (), f) ∧ r.merge f = (.ok (), m) ∧
        gather policy m rest = .ok r' := by
  rw [gather]
  cases (empty policy).play script with
  | mk result f =>
      cases result with
      | error e => simp
      | ok u =>
          cases hm : r.merge f with
          | mk result m =>
              cases result with
              | error e => simp [hm]
              | ok u => simp [hm]

/-- Playing a script keeps the registry consistent. -/
theorem consistent_of_play {script : Script} (hr : r.Consistent)
    (h : r.play script = (.ok (), r')) : r'.Consistent := by
  obtain ⟨es, -, hes⟩ := play_eq_ok.1 h
  exact enters_insert.consistent_foldlM hes hr

theorem policy_of_play {script : Script} (h : r.play script = (.ok (), r')) :
    r'.policy = r.policy := by
  obtain ⟨es, -, hes⟩ := play_eq_ok.1 h
  exact enters_insert.policy_foldlM hes

/-- Gathering scripts keeps the registry consistent. -/
theorem consistent_of_gather {scripts : List Script} (hr : r.Consistent)
    (h : gather policy r scripts = .ok r') : r'.Consistent := by
  induction scripts generalizing r with
  | nil =>
      cases h
      exact hr
  | cons script rest ih =>
      obtain ⟨f, m, -, hmerge, hrest⟩ := gather_cons_eq_ok.1 h
      exact ih (hr.merge hmerge) hrest

/-- One script: what can be played apart and merged, can be played on the spot. -/
theorem exists_play_of_merge {script : Script} (hr : r.Consistent) (hm : m.Consistent)
    (hp : m.policy = policy) (hsame : ∀ key, m.bare? key = r.bare? key)
    (hplay : (empty policy).play script = (.ok (), f)) (hmerge : r.merge f = (.ok (), r')) :
    ∃ m', m.play script = (.ok (), m') ∧ ∀ key, m'.bare? key = r'.bare? key := by
  obtain ⟨es, rfl, hes⟩ := play_eq_ok.1 hplay
  have hf : f.Consistent := consistent_of_play (consistent_empty _) hplay
  -- The merged registry `r'` has every key that is involved, so no full name is refused.
  have hbare' : ∀ key, r'.bare? key = (lastBare? key es).or (r.bare? key) := by
    intro key
    rw [bare?_merge hmerge, enters_insert.bare?_foldlM hes]
    simp
  have hkeys : ∀ key ∈ m.keys, key ∈ r'.keys := by
    intro key hkey
    rw [mem_keys_iff_bare?, hsame] at hkey
    obtain ⟨b, hb⟩ := hkey
    exact (below_of_merge hr hf hmerge).mem_keys (mem_keys_iff_bare?.2 ⟨b, hb⟩)
  have hentries : ∀ e ∈ es, e.1 ∈ r'.keys := by
    intro e he
    rw [enters_take.mem_keys_foldlM (takeAll_eq_ok.1 hmerge)]
    left
    change e.1 ∈ f.keys
    rw [enters_insert.mem_keys_foldlM hes]
    exact Or.inl (List.mem_map.2 ⟨e, he, rfl⟩)
  have hdef : m.policy = .error → m.Below r' ∧ ∀ e ∈ es, r'.bare? e.1 = some e.2.bare := by
    intro herror
    constructor
    · intro key b hb
      rw [hsame] at hb
      exact below_of_merge hr hf hmerge key b hb
    · intro e he
      have hcompatible : Compatible es :=
        ((enters_insert.exists_foldlM_iff (P := fun policy => policy = .error) exists_insert_iff
          (consistent_empty policy) (hp ▸ herror)).1 ⟨f, hes⟩).2
      rw [hbare', hcompatible.lastBare?_eq he, Option.some_or]
  obtain ⟨m', hm'⟩ := exists_insertAll (hr.merge hmerge) hm hkeys hentries hdef
  refine ⟨m', play_eq_ok.2 ⟨es, rfl, hm'⟩, fun key => ?_⟩
  rw [enters_insert.bare?_foldlM hm', hbare', hsame]

/-- Whatever is gathered can be played in sequence, with the same definitions in the end. -/
theorem exists_play_of_gather {scripts : List Script} (hr : r.Consistent) (hm : m.Consistent)
    (hp : m.policy = policy) (hsame : ∀ key, m.bare? key = r.bare? key)
    (h : gather policy r scripts = .ok r') :
    ∃ m', m.play scripts.flatten = (.ok (), m') ∧ ∀ key, m'.bare? key = r'.bare? key := by
  induction scripts generalizing r m with
  | nil =>
      cases h
      exact ⟨m, rfl, hsame⟩
  | cons script rest ih =>
      obtain ⟨f, r₁, hplay, hmerge, hrest⟩ := gather_cons_eq_ok.1 h
      obtain ⟨m₁, hm₁, hsame₁⟩ := exists_play_of_merge hr hm hp hsame hplay hmerge
      obtain ⟨m', hm', hsame'⟩ := ih (hr.merge hmerge) (consistent_of_play hm hm₁)
        (by rw [policy_of_play hm₁, hp]) hsame₁ hrest
      rw [List.flatten_cons]
      exact ⟨m', play_append_eq_ok.2 ⟨m₁, hm₁, hm'⟩, hsame'⟩

/-- A script of entries of one consistent registry can be played on an empty one, and stays below
it. -/
theorem exists_play_below (hs : s.Consistent) (hes : ∀ e ∈ es, s.bare? e.1 = some e.2.bare) :
    ∃ f, (empty policy).play (es.map .ok) = (.ok (), f) ∧ f.Below s := by
  have hnone : ∀ key, key ∉ (empty policy).keys := fun key => by simp [mem_keys_iff_bare?]
  obtain ⟨f, hf⟩ : ∃ f, es.foldlM (fun r e => r.insert e.1 e.2) (empty policy) = .ok f :=
    exists_insertAll hs (consistent_empty policy) (fun key hkey => absurd hkey (hnone key))
      (fun e he => mem_keys_iff_bare?.2 ⟨_, hes e he⟩) fun _ => ⟨below_empty _ _, hes⟩
  refine ⟨f, play_eq_ok.2 ⟨es, rfl, hf⟩, fun key b hb => ?_⟩
  rw [enters_insert.bare?_foldlM hf, bare?_empty, Option.or_none] at hb
  obtain ⟨e, he, rfl, rfl⟩ := exists_mem_of_lastBare? hb
  exact hes e he

/-- Scripts of entries of one consistent registry can be gathered, under either policy. -/
theorem exists_gather_of_below {lists : List (List Entry)} (hs : s.Consistent) (hr : r.Consistent)
    (hbelow : r.Below s) (hall : ∀ es ∈ lists, ∀ e ∈ es, s.bare? e.1 = some e.2.bare) :
    ∃ r', gather policy r (lists.map fun es => es.map .ok) = .ok r' := by
  induction lists generalizing r with
  | nil => exact ⟨r, rfl⟩
  | cons es lists ih =>
      rw [List.forall_mem_cons] at hall
      obtain ⟨f, hplay, hf⟩ : ∃ f, (empty policy).play (es.map .ok) = (.ok (), f) ∧ f.Below s :=
        exists_play_below hs hall.1
      have hfc : f.Consistent := consistent_of_play (consistent_empty _) hplay
      obtain ⟨r₁, hmerge, hbelow₁⟩ := hbelow.exists_merge hf hs hr hfc
      obtain ⟨r', hr'⟩ := ih (hr.merge hmerge) hbelow₁ hall.2
      exact ⟨r', gather_cons_eq_ok.2 ⟨f, r₁, hplay, hmerge, hr'⟩⟩

end Registry

end ProviderTypes
