import ProviderTypes.RootIndex.Basic
import ProviderTypes.Proofs.Build.Script
import ProviderTypes.Proofs.Container.Construction

/-!
# ProviderTypes.Proofs.RootIndex.Entries

The root index as four entries.  Members are recorded once in each group
(`RootCategories.Distinct`), so the unions of the groups are well formed, and
building the index is replacing these entries in order (`build_eq_forM`).

Replacing is refused only where another key has the full name.  No key of a
block has a full name of the root index, whatever the names are
(`Flattened.fullName_ne`): a details key ends in another letter, and a nested
key has three underscores at least.
-/

namespace ProviderTypes

open Registry (Entry Enters)

/-! ## members -/

namespace RootCategories

/-- Every group has each member once. -/
def Distinct (cs : RootCategories) : Prop := ∀ category, (cs.members category).Nodup

theorem distinct_empty : ({} : RootCategories).Distinct := fun category => by
  cases category <;> simp [members]

/-- Adding a member keeps the members distinct. -/
theorem nodup_addTo {l : List String} (h : l.Nodup) (member : String) : (addTo l member).Nodup := by
  unfold addTo
  split
  · exact h
  · next hm =>
      rw [List.nodup_append]
      refine ⟨h, by simp, fun a ha b hb => ?_⟩
      rw [List.mem_singleton.1 hb]
      intro hab
      exact hm (hab ▸ ha)

/-- Adding a member to a category keeps all members distinct. -/
theorem Distinct.add {cs : RootCategories} (h : cs.Distinct) (category : RootCategory)
    (member : String) : (cs.add category member).Distinct := by
  intro other
  have hother := h other
  cases category <;> cases other <;> first | exact hother | exact nodup_addTo hother member

/-- Adding members keeps all members distinct. -/
theorem Distinct.addAll {cs : RootCategories} (h : cs.Distinct)
    (found : List (RootCategory × String)) : (cs.addAll found).Distinct := by
  induction found generalizing cs with
  | nil => exact h
  | cons p found ih => exact ih (h.add p.1 p.2)

end RootCategories

namespace RootIndex

/-! ## the entries of the index -/

/-- Distinct members have distinct variants. -/
theorem nodup_variants (category : RootCategory) {members : List String} (h : members.Nodup) :
    ((variants category members).map Variant.name).Nodup := by
  simpa [variants, List.map_map, Function.comp_def] using h

/-- The record over all groups. -/
def configRecord : Record := ⟨RootCategory.all.map configField, by decide⟩

/-- The unions of the groups and the record over them, with their keys. -/
def entries (cs : RootCategories) (h : cs.Distinct) : List Entry :=
  RootCategory.all.map (fun category =>
    (.root category, .union ⟨variants category (cs.members category),
      nodup_variants category (h category)⟩)) ++
  [(.config, .record configRecord)]

/-- The keys of the index. -/
def keys : List QualifiedName := RootCategory.all.map .root ++ [.config]

example : keys = [⟨none, "provider_root"⟩, ⟨none, "resource_root"⟩, ⟨none, "data_root"⟩,
    ⟨none, "config"⟩] := by decide

/-- The index has its keys whatever the categories hold. -/
theorem map_fst_entries (cs : RootCategories) (h : cs.Distinct) :
    (entries cs h).map Prod.fst = keys := rfl

theorem mem_keys_of_mem_entries {cs : RootCategories} {h : cs.Distinct} {e : Entry}
    (he : e ∈ entries cs h) : e.1 ∈ keys := by
  rw [← map_fst_entries cs h]
  exact List.mem_map.2 ⟨e, he, rfl⟩

/-- The keys of the index are distinct. -/
theorem nodup_map_fst_entries {cs : RootCategories} (h : cs.Distinct) :
    ((entries cs h).map Prod.fst).Nodup := by
  rw [map_fst_entries]
  decide

/-- Building the index is replacing its entries in order. -/
theorem build_eq_forM (cs : RootCategories) (h : cs.Distinct) :
    build cs = (entries cs h).forM fun e => Build.replace e.1 e.2 := by
  have henum : ∀ category, buildEnum category (cs.members category) =
      Build.replace (.root category) (.union ⟨variants category (cs.members category),
        nodup_variants category (h category)⟩) := by
    intro category
    unfold buildEnum
    rw [Union.ofVariants_of_nodup (nodup_variants category (h category))]
    rfl
  have hconfig : buildConfig = Build.replace .config (.record configRecord) := by
    have hrecord : Record.ofFields .struct (RootCategory.all.map configField) = .ok configRecord :=
      Record.ofFields_of_nodup .struct configRecord.distinct
    unfold buildConfig
    rw [hrecord]
    rfl
  have hbuild : build cs =
      (buildEnum .provider (cs.members .provider) >>= fun _ =>
        buildEnum .resource (cs.members .resource) >>= fun _ =>
        buildEnum .data (cs.members .data) >>= fun _ => pure ()) >>= fun _ =>
      buildConfig >>= pure := by
    rw [bind_pure buildConfig]
    rfl
  rw [hbuild, henum, henum, henum, hconfig]
  simp only [bind_assoc, pure_bind]
  rfl

/-! ## replacing -/

variable {r : Registry} {es : List Entry}

/-- Entries replace what there is when no other key has one of their full names, neither in the
registry nor among them. -/
theorem exists_replaceAll (hr : r.Consistent)
    (hfree : ∀ e ∈ es, ∀ key ∈ r.keys, key.fullName = e.1.fullName → key = e.1)
    (hes : ∀ e ∈ es, ∀ d ∈ es, e.1.fullName = d.1.fullName → e.1 = d.1) :
    ∃ r', es.foldlM (fun r e => r.replace e.1 e.2) r = .ok r' := by
  induction es generalizing r with
  | nil => exact ⟨r, rfl⟩
  | cons e es ih =>
      rw [List.forall_mem_cons] at hfree
      have hn : r.otherOwner? e.1 = none := (Registry.otherOwner?_eq_none_iff hr).2 hfree.1
      have hfree' : ∀ d ∈ es, ∀ key ∈ (r.store e.1 e.2).keys,
          key.fullName = d.1.fullName → key = d.1 := by
        intro d hd key hkey hname
        cases Registry.mem_keys_store.1 hkey with
        | inl hkey =>
            subst hkey
            exact hes e List.mem_cons_self d (List.mem_cons_of_mem _ hd) hname
        | inr hkey => exact hfree.2 d hd key hkey hname
      obtain ⟨r', hr'⟩ := ih (hr.store hn e.2) hfree'
        fun a ha d hd => hes a (List.mem_cons_of_mem _ ha) d (List.mem_cons_of_mem _ hd)
      exact ⟨r', Registry.foldlM_cons_eq_ok.2 ⟨_, Registry.replace_eq_ok.2 ⟨hn, rfl⟩, hr'⟩⟩

/-- Replacements that are all granted leave the registry that they lead to. -/
theorem runOn_replaceAll {w : Workspace} {r' : Registry}
    (h : es.foldlM (fun r e => r.replace e.1 e.2) w.registry = .ok r') :
    Build.runOn (es.forM fun e => Build.replace e.1 e.2) w =
      (.ok (), { w with registry := r' }) := by
  induction es generalizing w with
  | nil =>
      cases h
      rfl
  | cons e es ih =>
      obtain ⟨m, hm, h⟩ := Registry.foldlM_cons_eq_ok.1 h
      change Build.runOn (Build.replace e.1 e.2 >>= fun _ => _) w = _
      rw [Build.runOn_bind, Build.runOn_replace hm]
      exact ih (w := { w with registry := m }) h

end RootIndex

/-! ## keys of blocks -/

/-- The key of a block, outermost or nested. -/
def QualifiedName.Flattened (key : QualifiedName) : Prop :=
  (∃ name, key = .details name) ∨ ∃ scope name child, key = .nested scope name child

/-- No block has a full name of the root index. -/
theorem QualifiedName.Flattened.fullName_ne {key root : QualifiedName} (h : key.Flattened)
    (hroot : root ∈ RootIndex.keys) : key.fullName ≠ root.fullName := by
  have hletters : ∀ root ∈ RootIndex.keys, root.fullName.toList.getLast? ≠ some 's' ∧
      root.fullName.toList.count '_' ≤ 1 := by decide
  obtain ⟨hlast, hcount⟩ := hletters root hroot
  intro heq
  rw [← heq] at hlast hcount
  cases h with
  | inl h =>
      obtain ⟨name, rfl⟩ := h
      rw [fullName_details] at hlast
      simp [String.toList_append] at hlast
  | inr h =>
      obtain ⟨scope, name, child, rfl⟩ := h
      rw [fullName_nested] at hcount
      simp [String.toList_append, List.count_append] at hcount
      omega

namespace RootIndex

/-- The index of members that are recorded once can be built beside blocks: its entries replace
what there is under their keys, which is no block. -/
theorem exists_runOn_build {cs : RootCategories} (h : cs.Distinct) {w : Workspace}
    (hr : w.registry.Consistent) (hkeys : ∀ key ∈ w.registry.keys, key.Flattened) :
    ∃ r', (entries cs h).foldlM (fun r e => r.replace e.1 e.2) w.registry = .ok r' ∧
      Build.runOn (build cs) w = (.ok (), { w with registry := r' }) := by
  have hmem : ∀ e ∈ entries cs h, e.1 ∈ keys := fun _ he => mem_keys_of_mem_entries he
  have hdistinct : ∀ a ∈ keys, ∀ b ∈ keys, a.fullName = b.fullName → a = b := by decide
  obtain ⟨r', hr'⟩ :
      ∃ r', (entries cs h).foldlM (fun r e => r.replace e.1 e.2) w.registry = .ok r' :=
    exists_replaceAll hr
      (fun e he key hkey hname => absurd hname ((hkeys key hkey).fullName_ne (hmem e he)))
      (fun e he d hd => hdistinct e.1 (hmem e he) d.1 (hmem d hd))
  refine ⟨r', hr', ?_⟩
  rw [build_eq_forM cs h]
  exact runOn_replaceAll hr'

end RootIndex

end ProviderTypes
