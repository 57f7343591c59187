import ProviderTypes.Proofs.Container.Places
import ProviderTypes.Proofs.Registry.History
import ProviderTypes.Proofs.Registry.References
import ProviderTypes.Proofs.Text.Joined
import ProviderTypes.Render

/-!
# ProviderTypes.Proofs.Registry.Validation

The check of references is exact.  A registry passes it when every name at every
place of every container is the full name of an entry or comes from outside
(`Registry.Resolved`).  Otherwise it tells each entry and each name in it that is
neither, once, entry by entry and in the order of the first places
(`Registry.Reports`); there is only one such report (`Reports.unique`).

Both renderings make this check first and cannot fail after it (`render_eq`), so
they accept the same registries (`validation_exact`).
-/

namespace ProviderTypes

/-- A name is met first at one place. -/
theorem Container.FirstAt.unique {c : Container} {name : String} {i j : List Nat}
    (hi : c.FirstAt name i) (hj : c.FirstAt name j) : i = j :=
  List.le_antisymm (List.not_lt.1 (hi.2 j hj.1)) (List.not_lt.1 (hj.2 i hi.1))

/-- A report names all that is missing. -/
theorem Unresolved.exists_message_eq (u : Unresolved) {p : String × String} (h : p ∈ u.missing) :
    ∃ before after, u.message = before ++ (p.1 ++ " -> " ++ p.2) ++ after := by
  have hmem : p.1 ++ " -> " ++ p.2 ∈ u.missing.map fun p => p.1 ++ " -> " ++ p.2 :=
    List.mem_map.2 ⟨p, h, rfl⟩
  obtain ⟨before, after, htexts⟩ := exists_intercalate_of_mem ", " hmem
  refine ⟨"Unresolved type references: " ++ before, after, ?_⟩
  unfold message
  rw [htexts]
  simp only [String.append_assoc]

namespace Registry

variable {r : Registry} {external : List String} {missing : List (String × String)}

/-! ## reports -/

/-- A name is the full name of an entry or comes from outside. -/
def Knows (r : Registry) (external : List String) (name : String) : Prop :=
  r.Defines name ∨ name ∈ external

/-- All names are known, wherever the containers refer to them. -/
def Resolved (r : Registry) (external : List String) : Prop :=
  ∀ e ∈ r.items, ∀ place name, e.2.refAt? place = some name → r.Knows external name

/-- One reference stands before another: in an entry that comes earlier, or in the same entry with
an earlier first place. -/
def MetBefore (r : Registry) (p q : String × String) : Prop :=
  ∃ d ∈ r.items, ∃ e ∈ r.items, d.1.fullName = p.1 ∧ e.1.fullName = q.1 ∧
    (d.1.Precedes e.1 ∨ d = e ∧ ∃ i j, d.2.FirstAt p.2 i ∧ e.2.FirstAt q.2 j ∧ i < j)

/-- The report of the unknown names, each with the full name of the entry that refers to it. -/
structure Reports (r : Registry) (external : List String) (missing : List (String × String)) :
    Prop where
  mem_iff : ∀ owner name, (owner, name) ∈ missing ↔
    ∃ e ∈ r.items, e.1.fullName = owner ∧ (∃ place, e.2.refAt? place = some name) ∧
      ¬ r.Knows external name
  /-- Each is told once. -/
  nodup : missing.Nodup
  ordered : missing.Pairwise r.MetBefore

/-- The registry finds unknown exactly the names that are neither defined nor from outside. -/
theorem knows_eq_false_iff (hr : r.Consistent) {name : String} :
    r.knows external name = false ↔ ¬ r.Knows external name := by
  have howner : r.owners.contains name = true ↔ r.Defines name := by
    rw [OrderedMap.contains, Option.isSome_iff_exists]
    simp only [hr.owner_iff]
    rfl
  simp [knows, Knows, ← howner]

/-! ## places of unknown names -/

/-- The places of unknown names, and what is reported of them. -/
def unknownPlaces (r : Registry) (external : List String) :
    List ((Entry × List Nat) × (String × String)) :=
  r.items.flatMap fun e => (e.2.places.filter fun p => ! r.knows external p.2).map fun p =>
    ((e, p.1), (e.1.fullName, p.2))

/-- An earlier entry, or an earlier place in the same entry. -/
def PlacedBefore (x y : Entry × List Nat) : Prop :=
  compare x.1.1 y.1.1 = .lt ∨ x.1 = y.1 ∧ x.2 < y.2

theorem placedBefore_asymm (x y : Entry × List Nat) (h : PlacedBefore x y) :
    ¬ PlacedBefore y x := by
  have hne : ∀ {d e : Entry}, compare d.1 e.1 = .lt → d ≠ e := by
    rintro d _ hlt rfl
    have heq : compare d.1 d.1 = .eq := Std.ReflCmp.compare_self
    rw [heq] at hlt
    contradiction
  rintro (hback | hback)
  · cases h with
    | inl hlt =>
        rw [Std.OrientedCmp.gt_of_lt hlt] at hback
        contradiction
    | inr hlt => exact hne hback hlt.1.symm
  · cases h with
    | inl hlt => exact hne hlt hback.1.symm
    | inr hlt => exact List.lt_asymm hlt.2 hback.2

/-- The unknown places are those of all entries at which an unknown name stands. -/
theorem mem_unknownPlaces {x : Entry × List Nat} {p : String × String} :
    (x, p) ∈ r.unknownPlaces external ↔ x.1 ∈ r.items ∧ x.1.1.fullName = p.1 ∧
      x.1.2.refAt? x.2 = some p.2 ∧ r.knows external p.2 = false := by
  obtain ⟨e, place⟩ := x
  obtain ⟨owner, name⟩ := p
  simp only [unknownPlaces, List.mem_flatMap, List.mem_map, List.mem_filter, Bool.not_eq_true',
    Prod.mk.injEq, Prod.exists, Container.mem_places]
  constructor
  · rintro ⟨key, c, he, place, name, ⟨hname, hknows⟩, ⟨rfl, rfl⟩, rfl, rfl⟩
    exact ⟨he, rfl, hname, hknows⟩
  · rintro ⟨he, rfl, hname, hknows⟩
    exact ⟨e.1, e.2, he, place, name, ⟨hname, hknows⟩, ⟨rfl, rfl⟩, rfl, rfl⟩

/-- What is missing is told once, in the order of the unknown places. -/
theorem missing_eq_eraseDups (r : Registry) (external : List String) :
    r.missing external = ((r.unknownPlaces external).map Prod.snd).eraseDups := by
  rw [missing, unknownPlaces, List.map_flatMap]
  congr 2
  funext e
  rw [← Container.map_snd_places, List.filter_map, List.map_map, List.map_map]
  rfl

/-- The unknown places are in order. -/
theorem pairwise_unknownPlaces (r : Registry) (external : List String) :
    (r.unknownPlaces external).Pairwise fun x y => PlacedBefore x.1 y.1 := by
  rw [unknownPlaces, List.pairwise_flatMap]
  constructor
  · intro e _
    rw [List.pairwise_map]
    exact (e.2.pairwise_places.filter _).imp fun hlt => Or.inr ⟨rfl, hlt⟩
  · refine r.entries.increasing.imp fun hlt x hx y hy => ?_
    obtain ⟨_, -, rfl⟩ := List.mem_map.1 hx
    obtain ⟨_, -, rfl⟩ := List.mem_map.1 hy
    exact Or.inl hlt

/-- The first unknown place of a name is its first place in the container. -/
theorem firstAt_of_firstOf {x : Entry × List Nat} {p : String × String}
    (h : FirstOf PlacedBefore (r.unknownPlaces external) p x) : x.1.2.FirstAt p.2 x.2 := by
  obtain ⟨hx, hfirst⟩ := h
  obtain ⟨he, howner, hname, hknows⟩ := mem_unknownPlaces.1 hx
  refine ⟨hname, fun other hother hlt => ?_⟩
  have hplace : ((x.1, other), p) ∈ r.unknownPlaces external :=
    mem_unknownPlaces.2 ⟨he, howner, hother, hknows⟩
  exact hfirst _ hplace (Or.inr ⟨rfl, hlt⟩)

/-! ## the check -/

/-- What is missing is reported. -/
theorem reports_missing (hr : r.Consistent) (external : List String) :
    r.Reports external (r.missing external) := by
  obtain ⟨-, hordered⟩ := pairwise_eraseDups placedBefore_asymm
    (r.pairwise_unknownPlaces external)
  rw [← missing_eq_eraseDups] at hordered
  refine ⟨fun owner name => ?_, ?_, ?_⟩
  · rw [mem_missing_iff]
    simp only [Container.mem_refs_iff, knows_eq_false_iff hr]
  · -- A reference that is told twice would have a first place before its first place.
    refine hordered.imp fun {p q} hbefore hpq => ?_
    obtain ⟨x, y, hx, hy, hlt⟩ := hbefore
    rw [← hpq] at hy
    exact hy.2 x hx.1 hlt
  · refine hordered.imp fun {p q} hbefore => ?_
    obtain ⟨x, y, hx, hy, hlt⟩ := hbefore
    obtain ⟨hd, hp, -⟩ := mem_unknownPlaces.1 hx.1
    obtain ⟨he, hq, -⟩ := mem_unknownPlaces.1 hy.1
    refine ⟨x.1, hd, y.1, he, hp, hq, ?_⟩
    cases hlt with
    | inl hlt => exact Or.inl (QualifiedName.precedes_of_compare hlt)
    | inr hlt =>
        exact Or.inr ⟨hlt.1, x.2, y.2, firstAt_of_firstOf hx, firstAt_of_firstOf hy, hlt.2⟩

/-- Nothing is reported exactly when all names are resolved. -/
theorem Reports.eq_nil_iff (h : r.Reports external missing) :
    missing = [] ↔ r.Resolved external := by
  rw [List.eq_nil_iff_forall_not_mem]
  constructor
  · intro hnone e he place name hname
    by_contra hunknown
    exact hnone (e.1.fullName, name)
      ((h.mem_iff _ _).2 ⟨e, he, rfl, ⟨place, hname⟩, hunknown⟩)
  · intro hresolved p hp
    obtain ⟨e, he, -, ⟨place, hname⟩, hunknown⟩ := (h.mem_iff p.1 p.2).1 hp
    exact hunknown (hresolved e he place p.2 hname)

/-- Entries of a consistent registry that have one full name are one entry. -/
theorem Consistent.eq_of_mem_items (hr : r.Consistent) {d e : Entry} (hd : d ∈ r.items)
    (he : e ∈ r.items) (h : d.1.fullName = e.1.fullName) : d = e := by
  rw [mem_items] at hd he
  have hkey : d.1 = e.1 := hr.eq_of_fullName_eq (mem_keys.2 ⟨_, hd⟩) (mem_keys.2 ⟨_, he⟩) h
  rw [hkey, he] at hd
  exact Prod.ext hkey (Option.some.inj hd).symm

/-- No two references stand before one another. -/
theorem MetBefore.asymm (hr : r.Consistent) {p q : String × String} (h : r.MetBefore p q) :
    ¬ r.MetBefore q p := by
  rintro ⟨e', he', d', hd', hq', hp', hback⟩
  obtain ⟨d, hd, e, he, hp, hq, hlt⟩ := h
  obtain rfl : d = d' := hr.eq_of_mem_items hd hd' (hp.trans hp'.symm)
  obtain rfl : e = e' := hr.eq_of_mem_items he he' (hq.trans hq'.symm)
  cases hlt with
  | inl hlt =>
      cases hback with
      | inl hback => exact hlt.asymm hback
      | inr hback =>
          rw [hback.1] at hlt
          exact d.1.not_precedes_self hlt
  | inr hlt =>
      obtain ⟨rfl, i, j, hi, hj, hlt⟩ := hlt
      cases hback with
      | inl hback => exact d.1.not_precedes_self hback
      | inr hback =>
          obtain ⟨-, j', i', hj', hi', hback⟩ := hback
          rw [hi'.unique hi, hj'.unique hj] at hback
          exact List.lt_asymm hlt hback

/-- There is one report. -/
theorem Reports.unique (hr : r.Consistent) {others : List (String × String)}
    (h : r.Reports external missing) (ho : r.Reports external others) : missing = others := by
  have hperm : missing.Perm others := by
    rw [List.perm_ext_iff_of_nodup h.nodup ho.nodup]
    intro p
    rw [h.mem_iff, ho.mem_iff]
  exact hperm.eq_of_pairwise (fun p q _ _ hpq hqp => absurd hqp (hpq.asymm hr)) h.ordered ho.ordered

/-- A registry passes the check exactly when all names are resolved. -/
theorem validateReferences_eq_ok_iff (hr : r.Consistent) :
    r.validateReferences external = .ok () ↔ r.Resolved external := by
  rw [← (reports_missing hr external).eq_nil_iff, validateReferences]
  split <;> simp_all

/-- A registry fails the check with the report of what is not resolved. -/
theorem validateReferences_eq_error_iff (hr : r.Consistent) {u : Unresolved} :
    r.validateReferences external = .error u ↔
      ¬ r.Resolved external ∧ r.Reports external u.missing := by
  have hreports := reports_missing hr external
  have hunique : r.Reports external u.missing ↔ r.missing external = u.missing := by
    constructor
    · intro h
      exact hreports.unique hr h
    · intro h
      rwa [← h]
  rw [hunique, ← hreports.eq_nil_iff, validateReferences]
  obtain ⟨missing⟩ := u
  split
  · simp_all
  · simp_all

/-! ## renderings -/

/-- Both renderings make the check first and do not fail after it. -/
theorem render_eq (write : Plain → String) (s : GeneratorSettings) (r : Registry) :
    r.render write s = (r.validateReferences s.externalNames).map fun _ =>
      match s.outputFormat with
      | .rust => "\n\n".intercalate ((Rust.blocks s r).map Rust.joinLines) ++ "\n"
      | .yaml => write r.plain := by
  unfold render Rust.source Yaml.source
  cases s.outputFormat <;> cases r.validateReferences s.externalNames <;> rfl

/-- A registry is rendered exactly when the names that it refers to are known. -/
theorem exists_render_iff (hr : r.Consistent) {write : Plain → String} {s : GeneratorSettings} :
    (∃ text, r.render write s = .ok text) ↔ r.Resolved s.externalNames := by
  rw [← validateReferences_eq_ok_iff hr, render_eq]
  cases r.validateReferences s.externalNames <;> simp [Except.map]

/-- A rendering that is refused tells the unknown names. -/
theorem render_eq_error_iff (hr : r.Consistent) {write : Plain → String} {s : GeneratorSettings}
    {u : Unresolved} :
    r.render write s = .error u ↔
      ¬ r.Resolved s.externalNames ∧ r.Reports s.externalNames u.missing := by
  rw [← validateReferences_eq_error_iff hr, render_eq]
  cases r.validateReferences s.externalNames <;> simp [Except.map]

/-- The check returns exactly when all names are known, and what it tells otherwise is the report of
the unknown names.  Whatever the settings and the writer of plain data, each rendering has a text
exactly when the names are known with those that the settings provide, and otherwise refuses with
their report, whose wording names every pair of it. -/
theorem validation_exact (hr : r.Consistent) (external : List String) :
    (r.validateReferences external = .ok () ↔ r.Resolved external) ∧
      (∀ missing, r.validateReferences external = .error ⟨missing⟩ ↔
        ¬ r.Resolved external ∧ r.Reports external missing) ∧
      ∀ (write : Plain → String) (s : GeneratorSettings) (format : OutputFormat),
        ((∃ text, r.render write { s with outputFormat := format } = .ok text) ↔
          r.Resolved s.externalNames) ∧
        ∀ u : Unresolved, (r.render write { s with outputFormat := format } = .error u ↔
            ¬ r.Resolved s.externalNames ∧ r.Reports s.externalNames u.missing) ∧
          ∀ p ∈ u.missing, ∃ before after, u.message = before ++ (p.1 ++ " -> " ++ p.2) ++ after :=
  ⟨validateReferences_eq_ok_iff hr, fun _ => validateReferences_eq_error_iff hr,
    fun _ _ _ => ⟨exists_render_iff hr, fun u => ⟨render_eq_error_iff hr,
      fun _ => u.exists_message_eq⟩⟩⟩

/-- Two entries that refer to the record among them and to two unknown names.  The check and both
renderings report three references, and both render the registry once these names are provided. -/
theorem validation_exact_unknown :
    let a := Format.ref "a" (by decide)
    let y := Format.ref "y" (by decide)
    let z := Format.ref "z" (by decide)
    let mapped := Container.record
      ⟨[⟨"f", .map z (.option y), {}⟩, ⟨"g", .tuple [a, .seq z], {}⟩], by decide⟩
    let wrapped := Container.union
      ⟨[⟨"P", .newtype a⟩, ⟨"Q", .tuple [.unit, .array y 2 (by decide)]⟩,
        ⟨"R", .record ⟨[⟨"h", a, {}⟩], by decide⟩⟩], by decide⟩
    let r := after [.insert ⟨some "n", "b"⟩ wrapped, .insert ⟨none, "a"⟩ mapped] (empty .error)
    let report := [("a", "z"), ("a", "y"), ("n_b", "y")]
    let s : GeneratorSettings := { externalDefinitions := [("m", ["y", "z"])] }
    r.Consistent ∧ ¬ r.Resolved [] ∧ r.Reports [] report ∧
      (∀ write format, r.render write { outputFormat := format } = .error ⟨report⟩) ∧
      r.Resolved s.externalNames ∧
      ∀ write format, ∃ text, r.render write { s with outputFormat := format } = .ok text := by
  intro a y z mapped wrapped r report s
  have hr : r.Consistent := consistent_after _ (consistent_empty _)
  obtain ⟨-, herror, hrender⟩ := validation_exact hr []
  obtain ⟨hok, -, -⟩ := validation_exact hr s.externalNames
  have hunknown := (herror report).1 (by decide +kernel)
  have hresolved := hok.1 (by decide +kernel)
  have hrefused (write : Plain → String) (format : OutputFormat) :
      r.render write { outputFormat := format } = .error ⟨report⟩ :=
    (((hrender write {} format).2 ⟨report⟩).1).2 hunknown
  exact ⟨hr, hunknown.1, hunknown.2, hrefused, hresolved,
    fun write format => ((hrender write s format).1).2 hresolved⟩

end Registry

end ProviderTypes
