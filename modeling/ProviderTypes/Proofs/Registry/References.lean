import ProviderTypes.Proofs.Build.Script

/-!
# ProviderTypes.Proofs.Registry.References

Registries in which every reference resolves.  A reference names a full name, so
it resolves when some key has that full name (`Registry.Closed`).

1. An entry whose references resolve keeps a registry closed, whichever way it is
   entered (`Enters.closed`): no operation loses a key, and the references that
   a replaced definition had do not matter any more.
2. A script keeps a registry closed (`Script.Keeps`) when each of its entries
   refers to names that stand before it, and this holds wherever the script stops.
3. A closed registry passes `validateReferences`, whatever names there are outside
   (`Closed.validateReferences_eq_ok`).
-/

namespace ProviderTypes

/-! ## references of a container -/

/-- The references of a record do not depend on its metadata. -/
theorem Record.refs_bare (r : Record) : r.bare.refs = r.refs := by
  simp [refs, bare, List.flatMap_map]

theorem Shape.refs_bare (s : Shape) : s.bare.refs = s.refs := by
  cases s with
  | record r => exact r.refs_bare
  | unit => rfl
  | newtype f => rfl
  | tuple fs => rfl

/-- Metadata refers to nothing. -/
theorem Container.refs_bare (c : Container) : c.bare.refs = c.refs := by
  cases c with
  | record r => exact r.refs_bare
  | union u => simp [refs, bare, Union.bare, Variant.bare, List.flatMap_map, Shape.refs_bare]
  | unit => rfl
  | newtype f => rfl

namespace Registry

variable {r r' m : Registry} {e : Entry} {es : List Entry} {key : QualifiedName}

/-! ## closed registries -/

/-- Some key has this full name. -/
def Defines (r : Registry) (name : String) : Prop := ∃ key ∈ r.keys, key.fullName = name

/-- Every reference resolves. -/
def Closed (r : Registry) : Prop := ∀ e ∈ r.items, ∀ name ∈ e.2.refs, r.Defines name

/-- The bare definitions tell whether a registry is closed. -/
theorem closed_iff : r.Closed ↔
    ∀ key b, r.bare? key = some b → ∀ name ∈ b.refs, r.Defines name := by
  constructor
  · intro h key b hb name hname
    obtain ⟨c, hget, rfl⟩ := Option.map_eq_some_iff.1 hb
    rw [Container.refs_bare] at hname
    exact h (key, c) (mem_items.2 hget) name hname
  · intro h e he name hname
    rw [← Container.refs_bare] at hname
    exact h e.1 e.2.bare (by rw [bare?, mem_items.1 he]; rfl) name hname

theorem closed_empty (policy : DuplicatePolicy) : (empty policy).Closed :=
  closed_iff.2 fun key b h => by simp at h

/-- A name that is defined stays so in a registry with all the keys. -/
theorem Defines.mono {name : String} (h : r.Defines name) (hkeys : ∀ key ∈ r.keys, key ∈ m.keys) :
    m.Defines name := by
  obtain ⟨key, hkey, hname⟩ := h
  exact ⟨key, hkeys key hkey, hname⟩

/-- Registries with equal definitions are closed together. -/
theorem Closed.congr (h : r.Closed) (hbare : ∀ key, m.bare? key = r.bare? key) : m.Closed := by
  rw [closed_iff] at h ⊢
  intro key b hb name hname
  rw [hbare] at hb
  apply (h key b hb name hname).mono
  intro key hkey
  rwa [mem_keys_iff_bare?, hbare, ← mem_keys_iff_bare?]

section Enters
variable {step : Registry → Entry → Except RegistryError Registry}

/-- Entries whose references resolve in the end keep a registry closed. -/
theorem Enters.closed_foldlM (hstep : Enters step) (h : es.foldlM step r = .ok r') (hr : r.Closed)
    (hrefs : ∀ e ∈ es, ∀ name ∈ e.2.refs, r'.Defines name) : r'.Closed := by
  have hkeys : ∀ key ∈ r.keys, key ∈ r'.keys :=
    fun key hkey => (hstep.mem_keys_foldlM h).2 (Or.inr hkey)
  rw [closed_iff] at hr ⊢
  intro key b hb name hname
  rw [hstep.bare?_foldlM h, Option.or_eq_some_iff] at hb
  cases hb with
  | inl hb =>
      obtain ⟨e, he, -, rfl⟩ := exists_mem_of_lastBare? hb
      rw [Container.refs_bare] at hname
      exact hrefs e he name hname
  | inr hb => exact (hr key b hb.2 name hname).mono hkeys

/-- An entry whose references resolve keeps a registry closed. -/
theorem Enters.closed (hstep : Enters step) (h : step r e = .ok r') (hr : r.Closed)
    (hrefs : ∀ name ∈ e.2.refs, r.Defines name) : r'.Closed := by
  have hfold : [e].foldlM step r = .ok r' := foldlM_cons_eq_ok.2 ⟨r', h, rfl⟩
  refine hstep.closed_foldlM hfold hr fun d hd name hname => ?_
  rw [List.mem_singleton.1 hd] at hname
  exact (hrefs name hname).mono fun key hkey => (hstep.mem_keys_foldlM hfold).2 (Or.inr hkey)

end Enters

/-! ## validation -/

/-- What is missing does not depend on metadata. -/
theorem missing_eq_bareItems (r : Registry) (external : List String) :
    r.missing external = (r.bareItems.flatMap fun e =>
      (e.2.refs.filter fun name => ! r.knows external name).map fun name =>
        (e.1.fullName, name)).eraseDups := by
  simp [missing, bareItems, List.flatMap_map, Container.refs_bare]

/-- What is missing are the references of the entries to names that are unknown. -/
theorem mem_missing_iff {external : List String} {p : String × String} :
    p ∈ r.missing external ↔
      ∃ e ∈ r.items, e.1.fullName = p.1 ∧ p.2 ∈ e.2.refs ∧ r.knows external p.2 = false := by
  obtain ⟨owner, name⟩ := p
  simp only [missing, List.mem_eraseDups, List.mem_flatMap, List.mem_map, List.mem_filter,
    Bool.not_eq_true', Prod.mk.injEq]
  constructor
  · rintro ⟨e, he, name, ⟨hname, hknows⟩, rfl, rfl⟩
    exact ⟨e, he, rfl, hname, hknows⟩
  · rintro ⟨e, he, rfl, hname, hknows⟩
    exact ⟨e, he, name, ⟨hname, hknows⟩, rfl, rfl⟩

/-- A registry knows the names that it defines. -/
theorem Consistent.knows (hr : r.Consistent) {name : String} (h : r.Defines name)
    (external : List String) : r.knows external name = true := by
  obtain ⟨key, hkey, rfl⟩ := h
  simp [Registry.knows, OrderedMap.contains, hr.owner_of_mem key hkey]

/-- A closed registry passes the check of its references, whatever is provided from outside. -/
theorem Closed.validateReferences_eq_ok (h : r.Closed) (hr : r.Consistent)
    (external : List String) :
    r.validateReferences external = .ok () := by
  have hnone : r.missing external = [] := by
    rw [List.eq_nil_iff_forall_not_mem]
    intro p hp
    obtain ⟨e, he, -, hname, hknows⟩ := mem_missing_iff.1 hp
    rw [hr.knows (h e he p.2 hname)] at hknows
    contradiction
  unfold validateReferences
  rw [hnone]

/-! ## scripts -/

/-- Playing loses no key, wherever the script stops. -/
theorem mem_keys_of_play {s : Script} {result : Except ExportError Unit}
    (h : r.play s = (result, r')) : ∀ key ∈ r.keys, key ∈ r'.keys := by
  induction s generalizing r with
  | nil =>
      cases h
      exact fun key hkey => hkey
  | cons x s ih =>
      cases x with
      | error e =>
          cases h
          exact fun key hkey => hkey
      | ok e =>
          rw [play] at h
          cases hi : r.insert e.1 e.2 with
          | error x =>
              rw [hi] at h
              cases h
              exact fun key hkey => hkey
          | ok m =>
              rw [hi] at h
              intro key hkey
              exact ih h key ((mem_keys_insert hi).2 (Or.inr hkey))

end Registry

/-- Playing the script keeps closed registries closed, wherever it stops, and the names are defined
at its end. -/
structure Script.Keeps (s : Script) (names : List String) : Prop where
  closed : ∀ {r r' : Registry} {result}, r.Closed → r.play s = (result, r') → r'.Closed
  defines : ∀ {r r' : Registry}, r.play s = (.ok (), r') → ∀ name ∈ names, r'.Defines name

namespace Script

variable {s t : Script} {names others : List String} {name : String}

theorem keeps_nil : Keeps [] [] where
  closed hr h := by
    cases h
    exact hr
  defines h name hname := by simp at hname

/-- A script that fails at once never ends well, so that nothing is to be defined. -/
theorem keeps_error (e : ExportError) : Keeps [.error e] names where
  closed hr h := by
    cases h
    exact hr
  defines h := by simp [Registry.play] at h

/-- Scripts in sequence; where the first stops the second does not matter. -/
theorem Keeps.append (hs : Keeps s names) (ht : Keeps t others) :
    Keeps (s ++ t) (names ++ others) where
  closed {r r' result} hr h := by
    cases Registry.play_append_cases h with
    | inl h => exact hs.closed hr h
    | inr h =>
        obtain ⟨m, hm, h⟩ := h
        exact ht.closed (hs.closed hr hm) h
  defines {r r'} h name hname := by
    obtain ⟨m, hm, h⟩ := Registry.play_append_eq_ok.1 h
    cases List.mem_append.1 hname with
    | inl hname => exact (hs.defines hm name hname).mono (Registry.mem_keys_of_play h)
    | inr hname => exact ht.defines h name hname

/-- A script that defines some names defines fewer of them. -/
theorem Keeps.subset (hs : Keeps s names) (h : ∀ n ∈ others, n ∈ names) : Keeps s others where
  closed := hs.closed
  defines hplay name hname := hs.defines hplay name (h name hname)

/-- An entry that refers to names which the script before it defines. -/
theorem Keeps.entry {e : Registry.Entry} (hs : Keeps s names) (hrefs : ∀ n ∈ e.2.refs, n ∈ names) :
    Keeps (s ++ [.ok e]) [e.1.fullName] where
  closed {r r' result} hr h := by
    cases Registry.play_append_cases h with
    | inl h => exact hs.closed hr h
    | inr h =>
        obtain ⟨m, hm, h⟩ := h
        cases Registry.play_entry_cases h with
        | inl h =>
            exact Registry.enters_insert.closed h.2 (hs.closed hr hm)
              fun n hn => hs.defines hm n (hrefs n hn)
        | inr h =>
            rw [h.2]
            exact hs.closed hr hm
  defines {r r'} h name hname := by
    obtain ⟨m, hm, h⟩ := Registry.play_append_eq_ok.1 h
    cases Registry.play_entry_cases h with
    | inl h =>
        rw [List.mem_singleton] at hname
        exact ⟨e.1, (Registry.mem_keys_insert h.2).2 (Or.inl rfl), hname.symm⟩
    | inr h => exact absurd rfl h.1

/-- The same with a failure in the place of the entry, if there is one. -/
theorem Keeps.enter {x : Except ExportError Registry.Entry} (hs : Keeps s names)
    (hx : ∀ e, x = .ok e → e.1.fullName = name ∧ ∀ n ∈ e.2.refs, n ∈ names) :
    Keeps (s ++ [x]) [name] := by
  cases x with
  | error e => exact (hs.append (keeps_error e)).subset fun n hn => List.mem_append_right _ hn
  | ok e =>
      obtain ⟨hname, hrefs⟩ := hx e rfl
      rw [← hname]
      exact hs.entry hrefs

/-- Scripts that keep registries closed do so in a row. -/
theorem Keeps.flatMap {ι : Type} {l : List ι} {script : ι → Script}
    (h : ∀ i, Keeps (script i) []) : Keeps (l.flatMap script) [] := by
  induction l with
  | nil => exact keeps_nil
  | cons i l ih => exact (h i).append ih

end Script

end ProviderTypes
