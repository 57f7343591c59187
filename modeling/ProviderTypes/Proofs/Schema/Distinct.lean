import ProviderTypes.Proofs.Json.Distinct
import ProviderTypes.Proofs.Schema.FirstViolation
import ProviderTypes.Proofs.Schema.Reordering

/-!
# ProviderTypes.Proofs.Schema.Distinct

A schema that is read from a text declares no name twice (`distinct_ofText`).  The
schema that a value stands for lists the names of the value's own objects, so it
inherits their being distinct.
-/

namespace ProviderTypes

namespace Json

variable {v : Json}

/-- The members of a value without repeated names have none. -/
theorem Distinct.field (h : v.Distinct) (name : String) : (v.field name).Distinct := by
  cases h with
  | @object members hnames heach =>
      rw [Json.field, Json.member]
      cases hget : Members.get? members name with
      | none => exact .null
      | some w => exact heach _ (Members.mem_of_get? hget)
  | _ => exact .null

/-- No object in such a value has a name twice. -/
theorem Distinct.nodup_entries (h : v.Distinct) : v.entries.names.Nodup := by
  cases h with
  | object hnames heach => exact hnames
  | _ => exact List.nodup_nil

theorem Distinct.of_mem_entries (h : v.Distinct) {m : String × Json} (hm : m ∈ v.entries) :
    m.2.Distinct := by
  cases h with
  | object hnames heach => exact heach m hm
  | _ => exact absurd hm List.not_mem_nil

end Json

namespace Schema

/-- The block of such a value has no name twice. -/
theorem distinct_blockOf {v : Json} (h : v.Distinct) : (blockOf v).Distinct := by
  rw [blockOf_eq]
  refine .mk ?_ ?_ ?_
  · rw [Members.names_mapValues]
    exact (h.field "attributes").nodup_entries
  · rw [Members.names_mapValues]
    exact (h.field "block_types").nodup_entries
  · intro e he
    obtain ⟨m, hm, rfl⟩ := List.mem_map.1 he
    have hsize : sizeOf (m.2.field "block") < sizeOf v := sizeOf_block_lt hm
    have hm : m.2.Distinct := (h.field "block_types").of_mem_entries hm
    exact distinct_blockOf (hm.field "block")
termination_by sizeOf v

variable {v : Json}

/-- The item of such a value has no name twice. -/
theorem distinct_itemOf (h : v.Distinct) : (itemOf v).block.Distinct :=
  distinct_blockOf (h.field "block")

/-- The items of such a value have distinct names, and no name twice within. -/
theorem distinct_items (h : v.Distinct) :
    (v.entries.mapValues itemOf).names.Nodup ∧
      ∀ e ∈ v.entries.mapValues itemOf, e.2.block.Distinct := by
  constructor
  · rw [Members.names_mapValues]
    exact h.nodup_entries
  · intro e he
    obtain ⟨m, hm, rfl⟩ := List.mem_map.1 he
    exact distinct_itemOf (h.of_mem_entries hm)

/-- The provider of such a value has no name twice. -/
theorem distinct_providerOf (h : v.Distinct) : (providerOf v).Distinct := by
  obtain ⟨hresources, hresourceBlocks⟩ := distinct_items (h.field "resource_schemas")
  obtain ⟨hdataSources, hdataSourceBlocks⟩ := distinct_items (h.field "data_source_schemas")
  exact ⟨distinct_itemOf (h.field "provider"), hresources, hresourceBlocks, hdataSources,
    hdataSourceBlocks⟩

/-- The schema of such a value has no name twice. -/
theorem distinct_reading (h : v.Distinct) : (reading v).Distinct := by
  have hproviders := h.field "provider_schemas"
  constructor
  · change ((v.field "provider_schemas").entries.mapValues providerOf).names.Nodup
    rw [Members.names_mapValues]
    exact hproviders.nodup_entries
  · intro e he
    obtain ⟨m, hm, rfl⟩ := List.mem_map.1 he
    exact distinct_providerOf (hproviders.of_mem_entries hm)

/-- A schema that is read from a text declares no name twice. -/
theorem distinct_ofText {text : String} {s : Schema} (h : ofText text = .ok s) : s.Distinct := by
  unfold ofText at h
  split at h
  · cases h
  · next v hv =>
      have hread : ofJson v = .ok s := by
        cases hofJson : ofJson v with
        | error e =>
            rw [hofJson] at h
            cases h
        | ok t =>
            rw [hofJson] at h
            exact congrArg _ (Except.ok.inj h)
      rw [ofJson_eq_verdict, verdict_eq_ok] at hread
      rw [hread.2]
      exact distinct_reading (Json.distinct_read hv)

end Schema

end ProviderTypes
