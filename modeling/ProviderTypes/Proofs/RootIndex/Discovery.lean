import ProviderTypes.Proofs.Registry.History
import ProviderTypes.Proofs.Registry.Replacement
import ProviderTypes.Proofs.RootIndex.Entries
import Mathlib.Data.List.Induction

/-!
# ProviderTypes.Proofs.RootIndex.Discovery

The root index of members as they are found.  Members are recorded by calls that
name a group; a call that names no group is refused and changes nothing.  A group
then has the members that were recorded for it, each where it came first
(`RootCategories.members_discover`).

The index can be built exactly where no other key has the full name of one of its
keys (`RootIndex.exists_runOn_build_iff`).  Then its entries stand under their keys,
everything else is as before, and to build it again changes nothing
(`RootIndex.build_discovered`).
-/

namespace ProviderTypes

open Registry (Entry)

/-! ## calls -/

/-- A category is found by its spelling. -/
theorem RootCategory.ofText?_eq_some_iff {name : String} {category : RootCategory} :
    ofText? name = some category ↔ category.text = name := by
  constructor
  · intro h
    simpa using List.find?_some h
  · rintro rfl
    cases category <;> rfl

namespace RootCategories

/-- Record a member of the group of this name; a name of no group is refused. -/
def addNamed (cs : RootCategories) (name member : String) : Except String RootCategories :=
  match RootCategory.ofText? name with
  | some category => .ok (cs.add category member)
  | none => .error (RootCategory.unknownMessage name)

/-- What is recorded after one more call; a call that is refused changes nothing. -/
def afterCall (cs : RootCategories) (call : String × String) : RootCategories :=
  match cs.addNamed call.1 call.2 with
  | .ok cs' => cs'
  | .error _ => cs

/-- What is recorded after these calls, each the name of a group and a member. -/
def discover (calls : List (String × String)) : RootCategories := calls.foldl afterCall {}

variable {cs : RootCategories} {name member : String}

/-- A call that names no group is refused with the name, and changes nothing. -/
theorem addNamed_eq_error (cs : RootCategories) (member : String)
    (h : ∀ category : RootCategory, category.text ≠ name) :
    cs.addNamed name member = .error (RootCategory.unknownMessage name) ∧
      cs.afterCall (name, member) = cs := by
  have herror : cs.addNamed name member = .error (RootCategory.unknownMessage name) := by
    unfold addNamed
    cases hname : RootCategory.ofText? name with
    | none => rfl
    | some category => exact absurd (RootCategory.ofText?_eq_some_iff.1 hname) (h category)
  exact ⟨herror, by rw [afterCall, herror]⟩

/-- A member is added to its category alone. -/
theorem members_add (category other : RootCategory) :
    (cs.add category member).members other =
      if category = other then addTo (cs.members other) member else cs.members other := by
  cases category <;> cases other <;> rfl

/-- A call adds its member to the category that it names. -/
theorem members_afterCall (call : String × String) (category : RootCategory) :
    (cs.afterCall call).members category =
      if call.1 = category.text then addTo (cs.members category) call.2
      else cs.members category := by
  unfold afterCall addNamed
  cases hname : RootCategory.ofText? call.1 with
  | none =>
      have hother : call.1 ≠ category.text := by
        intro htext
        rw [RootCategory.ofText?_eq_some_iff.2 htext.symm] at hname
        contradiction
      rw [if_neg hother]
  | some found =>
      have hfound : found.text = call.1 := RootCategory.ofText?_eq_some_iff.1 hname
      have hsame : found = category ↔ call.1 = category.text := by
        rw [← hfound]
        cases found <;> cases category <;> decide
      simp only [members_add, hsame]

/-- A member at the end is new or has been there. -/
theorem eraseDups_concat (l : List String) (member : String) :
    (l ++ [member]).eraseDups = addTo l.eraseDups member := by
  rw [List.eraseDups_append, addTo]
  by_cases hmember : member ∈ l
  · have hremoved : [member].removeAll l = [] := by simp [List.removeAll, hmember]
    rw [if_pos (List.mem_eraseDups.2 hmember), hremoved, List.eraseDups_nil, List.append_nil]
  · have hkept : [member].removeAll l = [member] := by simp [List.removeAll, hmember]
    rw [if_neg fun h => hmember (List.mem_eraseDups.1 h), hkept]
    rfl

/-- The last call is made last. -/
theorem discover_concat (calls : List (String × String)) (call : String × String) :
    discover (calls ++ [call]) = (discover calls).afterCall call := List.foldl_append

/-- A group has the members of the calls that name it, each once, in the order in which they came
first. -/
theorem members_discover (calls : List (String × String)) (category : RootCategory) :
    (discover calls).members category =
      ((calls.filter fun call => call.1 = category.text).map Prod.snd).eraseDups := by
  induction calls using List.reverseRecOn with
  | nil => cases category <;> rfl
  | append_singleton calls call ih =>
      rw [discover_concat, members_afterCall, ih, List.filter_append, List.map_append]
      by_cases hcall : call.1 = category.text
      · simp [hcall, eraseDups_concat]
      · simp [hcall]

/-- No category has a member twice. -/
theorem distinct_discover (calls : List (String × String)) : (discover calls).Distinct := by
  induction calls using List.reverseRecOn with
  | nil => exact distinct_empty
  | append_singleton calls call ih =>
      intro category
      rw [discover_concat, members_afterCall]
      split
      · exact nodup_addTo (ih category) _
      · exact ih category

end RootCategories

/-! ## numbers -/

/-- The number of a variant is its position. -/
theorem Union.numberFrom_eq_mapIdx (start : Nat) (vs : List Variant) :
    numberFrom start vs = vs.mapIdx fun i v => (Int.ofNat (start + i), v) := by
  induction vs generalizing start with
  | nil => rfl
  | cons v vs ih =>
      rw [numberFrom, ih, List.mapIdx_cons]
      simp only [Nat.add_assoc, Nat.add_comm 1]
      rfl

/-! ## building -/

/-- A replacement that is refused leaves the state. -/
theorem Build.runOn_replace_error {key : QualifiedName} {c : Container} {e : RegistryError}
    {w : Workspace} (h : w.registry.replace key c = .error e) :
    (Build.replace key c).runOn w = (.error (.registry e), w) := by
  unfold Build.replace
  rw [Build.runOn_bind, Build.runOn_get]
  simp only [h]
  rfl

namespace RootIndex

variable {cs : RootCategories} {w w' : Workspace} {es : List Entry}

/-- Replacing is done for all entries or fails. -/
theorem runOn_replaceAll_eq_ok :
    Build.runOn (es.forM fun e => Build.replace e.1 e.2) w = (.ok (), w') ↔
      ∃ r', es.foldlM (fun r e => r.replace e.1 e.2) w.registry = .ok r' ∧
        w' = { w with registry := r' } := by
  constructor
  · intro h
    induction es generalizing w with
    | nil =>
        cases h
        exact ⟨_, rfl, rfl⟩
    | cons e es ih =>
        change Build.runOn (Build.replace e.1 e.2 >>= fun _ =>
          es.forM fun e => Build.replace e.1 e.2) w = _ at h
        rw [Build.runOn_bind] at h
        cases hreplace : w.registry.replace e.1 e.2 with
        | error x => simp [Build.runOn_replace_error hreplace] at h
        | ok m =>
            rw [Build.runOn_replace hreplace] at h
            obtain ⟨r', hr', hw'⟩ := ih (w := { w with registry := m }) h
            exact ⟨r', Registry.foldlM_cons_eq_ok.2 ⟨m, hreplace, hr'⟩, hw'⟩
  · intro hexists
    obtain ⟨r', hr', rfl⟩ := hexists
    exact runOn_replaceAll hr'

/-- The index is built when each of its entries may be replaced. -/
theorem runOn_build_eq_ok (h : cs.Distinct) :
    (build cs).runOn w = (.ok (), w') ↔
      ∃ r', (entries cs h).foldlM (fun r e => r.replace e.1 e.2) w.registry = .ok r' ∧
        w' = { w with registry := r' } := by
  rw [build_eq_forM cs h]
  exact runOn_replaceAll_eq_ok

/-- The index can be built exactly where every key that has the full name of one of its keys is one
of them. -/
theorem exists_runOn_build_iff (h : cs.Distinct) (hr : w.registry.Consistent) :
    (∃ w', (build cs).runOn w = (.ok (), w')) ↔
      ∀ key ∈ w.registry.keys, key ∉ keys → ∀ root ∈ keys, key.fullName ≠ root.fullName := by
  have hkeys : ∀ a ∈ keys, ∀ b ∈ keys, a.fullName = b.fullName → a = b := by decide
  constructor
  · intro hexists key hkey hother root hroot hname
    obtain ⟨w', hrun⟩ := hexists
    obtain ⟨r', hr', -⟩ := (runOn_build_eq_ok h).1 hrun
    have hmem : ∀ k, k ∈ r'.keys ↔ k ∈ keys ∨ k ∈ w.registry.keys := by
      intro k
      rw [Registry.enters_replace.mem_keys_foldlM hr', map_fst_entries]
    have hconsistent : r'.Consistent := Registry.enters_replace.consistent_foldlM hr' hr
    have heq : key = root := hconsistent.eq_of_fullName_eq ((hmem key).2 (Or.inr hkey))
      ((hmem root).2 (Or.inl hroot)) hname
    exact hother (heq ▸ hroot)
  · intro hfree
    have hentries : ∀ e ∈ entries cs h, ∀ key ∈ w.registry.keys,
        key.fullName = e.1.fullName → key = e.1 := by
      intro e he key hkey hname
      have hroot := mem_keys_of_mem_entries he
      by_cases hown : key ∈ keys
      · exact hkeys key hown e.1 hroot hname
      · exact absurd hname (hfree key hkey hown e.1 hroot)
    obtain ⟨r', hr'⟩ := exists_replaceAll hr hentries fun e he d hd =>
      hkeys e.1 (mem_keys_of_mem_entries he) d.1 (mem_keys_of_mem_entries hd)
    exact ⟨_, (runOn_build_eq_ok h).2 ⟨r', hr', rfl⟩⟩

/-- To build the index where it was built changes nothing. -/
theorem runOn_build_again (h : cs.Distinct) (hr : w.registry.Consistent)
    (hrun : (build cs).runOn w = (.ok (), w')) : (build cs).runOn w' = (.ok (), w') := by
  obtain ⟨r', hr', rfl⟩ := (runOn_build_eq_ok h).1 hrun
  have hconsistent : r'.Consistent := Registry.enters_replace.consistent_foldlM hr' hr
  have hthere : ∀ e ∈ entries cs h, r'.get? e.1 = some e.2 := fun e he =>
    Registry.get?_replaceAll_of_mem hr' (nodup_map_fst_entries h) he
  exact (runOn_build_eq_ok h).2 ⟨r', Registry.replaceAll_eq_self hconsistent hthere, rfl⟩

/-! ## the index of what was found -/

/-- A member refers to its block. -/
theorem refs_memberFormat (category : RootCategory) (member : String) :
    (memberFormat category member).refs = [member ++ "_details"] := by
  cases category <;> rfl

/-- The variants of a group are numbered by the positions of its members. -/
theorem ofNumbered_mapIdx (category : RootCategory) {members : List String} (h : members.Nodup) :
    Union.ofNumbered (members.mapIdx fun i member =>
        ((i : Int), ⟨member, .newtype (memberFormat category member)⟩)) =
      .ok ⟨variants category members, nodup_variants category h⟩ := by
  have hnumbered : (members.mapIdx fun i member =>
      ((i : Int), (⟨member, .newtype (memberFormat category member)⟩ : Variant))) =
      Union.numberFrom 0 (variants category members) := by
    rw [Union.numberFrom_eq_mapIdx, variants]
    apply List.ext_getElem?
    intro i
    simp [Function.comp_def]
  rw [hnumbered]
  exact Union.ofVariants_of_nodup (nodup_variants category h)

/-- The root index of members as they are found.  A call that names no group is refused.  The index
is built exactly where every key with the full name of one of its keys is one of them.  Then the
union of each group has one variant for each member that was recorded for it, in the order in which
they came first and numbered by this order, which refers to the member's block; the record over the
groups has an optional sequence for each; every other entry is as before, and building the index
again changes nothing. -/
theorem build_discovered (calls : List (String × String)) {w : Workspace}
    (hr : w.registry.Consistent) :
    (∀ (cs : RootCategories) (name member : String),
        (∀ category : RootCategory, category.text ≠ name) →
          cs.addNamed name member = .error (RootCategory.unknownMessage name) ∧
            cs.afterCall (name, member) = cs) ∧
      ((∃ w', (build (.discover calls)).runOn w = (.ok (), w')) ↔
        ∀ key ∈ w.registry.keys, key ∉ keys → ∀ root ∈ keys, key.fullName ≠ root.fullName) ∧
      (∀ category member, (memberFormat category member).refs = [member ++ "_details"]) ∧
      ∀ w', (build (.discover calls)).runOn w = (.ok (), w') →
        (∀ category : RootCategory, ∃ u, w'.registry.get? (.root category) = some (.union u) ∧
          Union.ofNumbered
            (((calls.filter fun call => call.1 = category.text).map Prod.snd).eraseDups.mapIdx
              fun i member => ((i : Int), ⟨member, .newtype (memberFormat category member)⟩)) =
            .ok u) ∧
        (∃ r, w'.registry.get? .config = some (.record r) ∧
          r.fields =
            [{ name := "provider", value := .option (.seq (.ref "provider_root" (by decide))) },
              { name := "resource", value := .option (.seq (.ref "resource_root" (by decide))) },
              { name := "data", value := .option (.seq (.ref "data_root" (by decide))) }]) ∧
        (∀ key, key ∉ keys → w'.registry.get? key = w.registry.get? key) ∧
        w' = { w with registry := w'.registry } ∧
        (build (.discover calls)).runOn w' = (.ok (), w') := by
  have hdistinct := RootCategories.distinct_discover calls
  refine ⟨fun cs _ member h => RootCategories.addNamed_eq_error cs member h,
    exists_runOn_build_iff hdistinct hr, refs_memberFormat, ?_⟩
  intro w' hrun
  have hagain := runOn_build_again hdistinct hr hrun
  obtain ⟨r', hr', rfl⟩ := (runOn_build_eq_ok hdistinct).1 hrun
  have hthere : ∀ e ∈ entries _ hdistinct, r'.get? e.1 = some e.2 := fun e he =>
    Registry.get?_replaceAll_of_mem hr' (nodup_map_fst_entries hdistinct) he
  refine ⟨?_, ⟨configRecord, ?_, rfl⟩, ?_, rfl, hagain⟩
  · intro category
    refine ⟨_, hthere (.root category, _) (List.mem_append_left _ (List.mem_map.2
      ⟨category, by cases category <;> decide, rfl⟩)), ?_⟩
    rw [← RootCategories.members_discover]
    exact ofNumbered_mapIdx category (hdistinct category)
  · exact hthere (.config, .record configRecord)
      (List.mem_append_right _ (List.mem_singleton_self _))
  · intro key hkey
    rw [← map_fst_entries _ hdistinct] at hkey
    exact Registry.get?_replaceAll_of_not_mem hr' hkey

/-- A registry with a block and with something else in the place of an index. -/
def stale : Registry :=
  Registry.after
    [.insert ⟨none, "data_root"⟩ .unit, .insert ⟨some "zone_block_type", "rule"⟩ .unit]
    (.empty .error)

/-- The index replaces what stood in its place and leaves the block, but is not built where a key in
a namespace has one of its full names.  A member that is recorded twice counts once, and one of no
group does not count. -/
theorem build_discovered_stale :
    let calls := [("provider", "net"), ("data", "zone"), ("module", "zone"), ("data", "host"),
      ("data", "zone")]
    let w : Workspace := { registry := stale }
    let blocked : Workspace := { registry := stale.store ⟨some "provider", "root"⟩ .unit }
    w.registry.Consistent ∧ blocked.registry.Consistent ∧
      (∃ w', (build (.discover calls)).runOn w = (.ok (), w') ∧
        (∃ u, w'.registry.get? (.root .data) = some (.union u) ∧
          u.variants.map Variant.name = ["zone", "host"]) ∧
        w'.registry.get? ⟨some "zone_block_type", "rule"⟩ = some .unit ∧
        (build (.discover calls)).runOn w' = (.ok (), w')) ∧
      ¬ ∃ w', (build (.discover calls)).runOn blocked = (.ok (), w') := by
  intro calls w blocked
  have hstale : stale.Consistent := Registry.consistent_after _ (Registry.consistent_empty _)
  have hblocked : blocked.registry.Consistent := hstale.store (by decide +kernel) _
  obtain ⟨-, hiff, -, hbuilt⟩ := build_discovered calls (w := w) hstale
  obtain ⟨-, hiff', -, -⟩ := build_discovered calls (w := blocked) hblocked
  obtain ⟨w', hrun⟩ := hiff.2 (by decide +kernel)
  obtain ⟨hunions, -, hother, -, hagain⟩ := hbuilt w' hrun
  obtain ⟨u, hu, hnumbered⟩ := hunions .data
  have hnames : (Union.ofNumbered
      (((calls.filter fun call => call.1 = RootCategory.data.text).map Prod.snd).eraseDups.mapIdx
        fun i member => ((i : Int), ⟨member, .newtype (memberFormat .data member)⟩))).toOption.map
          (fun u => u.variants.map Variant.name) = some ["zone", "host"] := by decide +kernel
  rw [hnumbered] at hnames
  have hblock : w'.registry.get? ⟨some "zone_block_type", "rule"⟩ = some .unit := by
    rw [hother _ (by decide)]
    decide +kernel
  exact ⟨hstale, hblocked, ⟨w', hrun, ⟨u, hu, Option.some.inj hnames⟩, hblock, hagain⟩,
    fun hexists => absurd (hiff'.1 hexists) (by decide +kernel)⟩

end RootIndex

end ProviderTypes
