import ProviderTypes.Container.Basic

/-!
# ProviderTypes.Proofs.Container.Construction

When parts make a record or a union.  Fields make a record exactly when their
names are distinct; variants that are numbered by their positions make a union
when theirs are.  Both keep the parts as they are.
-/

namespace ProviderTypes

/-! ## records -/

theorem Record.ofFields_of_nodup (kind : RecordKind) {fields : List Field}
    (h : (fields.map Field.name).Nodup) : Record.ofFields kind fields = .ok ⟨fields, h⟩ := by
  unfold Record.ofFields
  split
  · rfl
  · next name hrepeat =>
      rw [firstRepeat?_eq_none_iff.2 h] at hrepeat
      contradiction

/-- A record has the fields that it is made of, and these have distinct names. -/
theorem Record.ofFields_eq_ok {kind : RecordKind} {fields : List Field} {r : Record} :
    Record.ofFields kind fields = .ok r ↔ r.fields = fields := by
  constructor
  · intro h
    unfold Record.ofFields at h
    split at h
    · cases h
      rfl
    · contradiction
  · intro h
    subst h
    exact Record.ofFields_of_nodup kind r.distinct

/-- A record is built exactly when its names are distinct. -/
theorem Record.exists_ofFields_iff (kind : RecordKind) (fields : List Field) :
    (∃ r, Record.ofFields kind fields = .ok r) ↔ (fields.map Field.name).Nodup := by
  constructor
  · intro hexists
    obtain ⟨r, hr⟩ := hexists
    rw [← Record.ofFields_eq_ok.1 hr]
    exact r.distinct
  · intro h
    exact ⟨_, Record.ofFields_of_nodup kind h⟩

/-! ## unions -/

namespace Union

/-- Variants that are numbered by their positions can only have a name that is taken. -/
theorem fault?_numberFrom (start : Nat) (seen : List String) (vs : List Variant) :
    fault? start seen (numberFrom start vs) =
      (firstRepeatFrom? seen (vs.map Variant.name)).map .repeatedVariant := by
  induction vs generalizing start seen with
  | nil => rfl
  | cons v vs ih =>
      rw [numberFrom, fault?, if_neg (by simp), List.map_cons, firstRepeatFrom?, ih]
      split <;> rfl

/-- Numbering keeps the variants. -/
theorem map_snd_numberFrom (vs : List Variant) (start : Nat) :
    (numberFrom start vs).map Prod.snd = vs := by
  induction vs generalizing start with
  | nil => rfl
  | cons v vs ih => rw [numberFrom, List.map_cons, ih]

/-- Variants with distinct names make a union. -/
theorem ofVariants_of_nodup {vs : List Variant} (h : (vs.map Variant.name).Nodup) :
    ofVariants vs = .ok ⟨vs, h⟩ := by
  unfold ofVariants ofNumbered
  split
  · next e he =>
      have hnone : firstRepeatFrom? [] (vs.map Variant.name) = none := firstRepeat?_eq_none_iff.2 h
      rw [fault?_numberFrom, hnone] at he
      contradiction
  · congr 1
    exact Union.ext (map_snd_numberFrom vs 0)

end Union

end ProviderTypes
