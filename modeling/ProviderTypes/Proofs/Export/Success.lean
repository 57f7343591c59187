import ProviderTypes.Proofs.Export.Plan
import ProviderTypes.Proofs.Registry.Admission

/-!
# ProviderTypes.Proofs.Export.Success

When an export succeeds, and what it leaves.  The plan of a schema
(`Schema.plan`) has an entry for every block, with the record that the block
translates to by itself.

1. Under the policy of errors an export succeeds exactly when every block
   translates and the plan is compatible (`exists_toRegistry_iff`): no order of
   blocks matters.
2. Under either policy the keys of the result are those of the declarations and
   of the root index (`mem_keys_toRegistry`), and each key of the plan has its last
   definition there (`bare?_toRegistry`).
-/

namespace ProviderTypes

open Flatten (fieldNames entriesOf mem_entriesOf exists_translate_iff)
open Registry (Entry Compatible lastBare?)

namespace Schema

variable {settings : FlatteningSettings} {schema : Schema} {r : Registry}

/-- The entries of all blocks that translate, each with the record of its own block. -/
def plan (settings : FlatteningSettings) (schema : Schema) : List Entry :=
  entriesOf settings.escapes (schema.declarations settings)

/-- A schema has a registry exactly when its script succeeds. -/
theorem exists_toRegistry_iff_played :
    (∃ r, schema.toRegistry settings = .ok r) ↔
      ∃ m, (Registry.empty settings.onDuplicate).play (schema.script settings) = (.ok (), m) := by
  constructor
  · intro hexists
    obtain ⟨r, hr⟩ := hexists
    obtain ⟨m, hm, -⟩ := toRegistry_eq_ok.1 hr
    exact ⟨m, hm⟩
  · intro hexists
    obtain ⟨m, hm⟩ := hexists
    obtain ⟨r, -, hr⟩ := toRegistry_of_played hm
    exact ⟨r, hr⟩

/-- Under the policy of errors an export succeeds exactly when every block translates and the
planned entries agree with each other. -/
theorem exists_toRegistry_iff (hpolicy : settings.onDuplicate = .error) :
    (∃ r, schema.toRegistry settings = .ok r) ↔
      (∀ d ∈ schema.declarations settings, ∃ x, d.record settings.escapes = .ok x) ∧
        Compatible (schema.plan settings) := by
  have hadmit : (∃ m : Registry, (schema.plan settings).foldlM (fun r e => r.insert e.1 e.2)
      (Registry.empty settings.onDuplicate) = .ok m) ↔ Compatible (schema.plan settings) := by
    rw [Registry.enters_insert.exists_foldlM_iff (P := fun policy => policy = .error)
      Registry.exists_insert_iff (Registry.consistent_empty _) hpolicy]
    exact and_iff_right fun e _ => Registry.admits_empty _ e
  rw [exists_toRegistry_iff_played, ← hadmit]
  simp only [(registers_script settings schema).play_eq_ok, exists_and_left]
  rfl

/-! ## the registry of an export -/

/-- The result has the plan's entries inserted, and over them the root index. -/
theorem exists_filled (h : schema.toRegistry settings = .ok r) :
    (∀ d ∈ schema.declarations settings, ∃ x, d.record settings.escapes = .ok x) ∧
      ∃ m : Registry, (schema.plan settings).foldlM (fun r e => r.insert e.1 e.2)
          (Registry.empty settings.onDuplicate) = .ok m ∧
        schema.rootEntries.foldlM (fun r e => r.replace e.1 e.2) m = .ok r := by
  obtain ⟨m, hm, hr⟩ := toRegistry_eq_ok.1 h
  obtain ⟨htranslate, hplan⟩ := (registers_script settings schema).play_eq_ok.1 hm
  exact ⟨htranslate, m, hplan, hr⟩

theorem map_fst_rootEntries (schema : Schema) : schema.rootEntries.map Prod.fst = RootIndex.keys :=
  RootIndex.map_fst_entries _ _

/-- The plan has the keys of all blocks, if every block translates. -/
theorem mem_map_fst_plan {key : QualifiedName}
    (h : ∀ d ∈ schema.declarations settings, ∃ x, d.record settings.escapes = .ok x) :
    key ∈ (schema.plan settings).map Prod.fst ↔
      ∃ d ∈ schema.declarations settings, d.key = key := by
  rw [List.mem_map]
  constructor
  · intro hexists
    obtain ⟨e, he, hkey⟩ := hexists
    obtain ⟨d, hd, x, -, rfl⟩ := mem_entriesOf.1 he
    exact ⟨d, hd, hkey⟩
  · intro hexists
    obtain ⟨d, hd, hkey⟩ := hexists
    obtain ⟨x, hx⟩ := h d hd
    exact ⟨(d.key, .record x), mem_entriesOf.2 ⟨d, hd, x, hx, rfl⟩, hkey⟩

/-- The keys of a result are those of the blocks and those of the root index. -/
theorem mem_keys_toRegistry (h : schema.toRegistry settings = .ok r) {key : QualifiedName} :
    key ∈ r.keys ↔
      (∃ d ∈ schema.declarations settings, d.key = key) ∨ key ∈ RootIndex.keys := by
  obtain ⟨htranslate, m, hm, hr⟩ := exists_filled h
  have hempty : key ∉ (Registry.empty settings.onDuplicate).keys := by
    simp [Registry.mem_keys_iff_bare?]
  rw [Registry.enters_replace.mem_keys_foldlM hr, Registry.enters_insert.mem_keys_foldlM hm,
    map_fst_rootEntries, mem_map_fst_plan htranslate, or_iff_left hempty, or_comm]

/-- A key that no part of the root index has got its last definition in the plan. -/
theorem bare?_toRegistry (h : schema.toRegistry settings = .ok r) {key : QualifiedName}
    (hkey : key ∉ RootIndex.keys) : r.bare? key = lastBare? key (schema.plan settings) := by
  obtain ⟨-, m, hm, hr⟩ := exists_filled h
  have hroot : lastBare? key schema.rootEntries = none := by
    rw [Registry.lastBare?_eq_none_iff]
    intro e he hek
    apply hkey
    rw [← map_fst_rootEntries schema, ← hek]
    exact List.mem_map.2 ⟨e, he, rfl⟩
  rw [Registry.enters_replace.bare?_foldlM hr, hroot, Registry.enters_insert.bare?_foldlM hm]
  simp

/-- No block has a key of the root index. -/
theorem key_not_mem_rootKeys {d : Declaration} (hd : d ∈ schema.declarations settings) :
    d.key ∉ RootIndex.keys := fun hkey =>
  (flattened_of_mem_declarations hd).fullName_ne hkey rfl

/-- The export of a schema under the policy of errors.  It succeeds exactly when all attribute types
are supported, the field names of every block are distinct, and planned entries with one full name
have one key and structurally equal records.  The result then has the keys of all blocks and of the
root index, nothing else, and under the key of every block a record that is structurally equal to
the block's own translation. -/
theorem toRegistry_correct (hpolicy : settings.onDuplicate = .error) :
    ((∃ r, schema.toRegistry settings = .ok r) ↔
      (∀ d ∈ schema.declarations settings, ∀ a ∈ d.block.attributes, a.2.type.Supported) ∧
      (∀ d ∈ schema.declarations settings, (fieldNames settings.escapes d.block).Nodup) ∧
      ∀ e ∈ schema.plan settings, ∀ e' ∈ schema.plan settings,
        e.1.fullName = e'.1.fullName → e.1 = e'.1 ∧ e.2.Same e'.2) ∧
    ∀ r, schema.toRegistry settings = .ok r →
      (∀ key, key ∈ r.keys ↔
        (∃ d ∈ schema.declarations settings, d.key = key) ∨ key ∈ RootIndex.keys) ∧
      ∀ d ∈ schema.declarations settings, ∃ x c, d.record settings.escapes = .ok x ∧
        r.get? d.key = some c ∧ c.Same (.record x) := by
  have hsuccess : (∃ r, schema.toRegistry settings = .ok r) ↔ _ := exists_toRegistry_iff hpolicy
  have htranslate : (∀ d ∈ schema.declarations settings, ∃ x, d.record settings.escapes = .ok x) ↔
      (∀ d ∈ schema.declarations settings, ∀ a ∈ d.block.attributes, a.2.type.Supported) ∧
      ∀ d ∈ schema.declarations settings, (fieldNames settings.escapes d.block).Nodup := by
    rw [← forall₂_and]
    exact forall₂_congr fun d _ => exists_translate_iff
  constructor
  · rw [hsuccess, htranslate, and_assoc]
    rfl
  · intro r hr
    obtain ⟨hrecords, hcompatible⟩ := hsuccess.1 ⟨r, hr⟩
    refine ⟨fun key => mem_keys_toRegistry hr, fun d hd => ?_⟩
    obtain ⟨x, hx⟩ := hrecords d hd
    have hplan : (d.key, .record x) ∈ schema.plan settings := mem_entriesOf.2 ⟨d, hd, x, hx, rfl⟩
    have hbare : r.bare? d.key = some (Container.record x).bare := by
      rw [bare?_toRegistry hr (key_not_mem_rootKeys hd)]
      exact hcompatible.lastBare?_eq hplan
    obtain ⟨c, hget, hsame⟩ := Registry.bare?_eq_some_iff.1 hbare
    exact ⟨x, c, hx, hget, hsame⟩

/-- Both providers of the sample declare one resource, and the export succeeds. -/
theorem toRegistry_correct_sample :
    FlatteningSettings.onDuplicate {} = .error ∧
      ∃ r, sample.toRegistry {} = .ok r ∧
        QualifiedName.nested (some "resource") "net_rule" "match" ∈ r.keys := by
  obtain ⟨hsuccess, hresult⟩ := @toRegistry_correct {} sample rfl
  obtain ⟨r, hr⟩ := hsuccess.2 ⟨by decide +kernel, by decide +kernel, by decide +kernel⟩
  obtain ⟨hkeys, -⟩ := hresult r hr
  exact ⟨rfl, r, hr, (hkeys _).2 (by decide +kernel)⟩

end Schema

end ProviderTypes
