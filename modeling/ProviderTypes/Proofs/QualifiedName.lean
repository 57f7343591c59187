import ProviderTypes.QualifiedName

/-!
# ProviderTypes.Proofs.QualifiedName

The order of keys, said without the comparison that sorts them: by the numbers of the
characters in their names (`QualifiedName.precedes_of_compare`).
-/

namespace ProviderTypes

/-- The numbers of the characters of a text. -/
def codePoints (text : String) : List Nat := text.toList.map Char.toNat

/-- Keys without a namespace come first; then the namespace decides, and then the name, both by
the numbers of their characters. -/
def QualifiedName.Precedes (a b : QualifiedName) : Prop :=
  match a.scope, b.scope with
  | none, none => codePoints a.name < codePoints b.name
  | none, some _ => True
  | some _, none => False
  | some s, some t =>
    codePoints s < codePoints t ∨ s = t ∧ codePoints a.name < codePoints b.name

/-- The comparison of texts goes by the numbers of their characters. -/
theorem codePoints_lt_of_compare {s t : String} (h : compare s t = .lt) :
    codePoints s < codePoints t := by
  have hlt : s < t := compareOfLessAndEq_eq_lt.1 h
  exact List.map_lt (fun _ _ hxy => hxy) (String.lt_iff.1 hlt)

/-- The comparison that sorts keys puts them in this order. -/
theorem QualifiedName.precedes_of_compare {a b : QualifiedName} (h : compare a b = .lt) :
    a.Precedes b := by
  obtain ⟨s, n⟩ := a
  obtain ⟨t, m⟩ := b
  have hthen : (compare s t).then (compare n m) = .lt := h
  rw [Ordering.then_eq_lt] at hthen
  cases hthen with
  | inl hscope =>
      cases s with
      | none =>
          cases t with
          | none => exact absurd hscope (by decide)
          | some t => trivial
      | some s =>
          cases t with
          | none => cases hscope
          | some t => exact Or.inl (codePoints_lt_of_compare hscope)
  | inr hname =>
      obtain ⟨hscope, hname⟩ := hname
      obtain rfl : s = t := Std.LawfulEqOrd.eq_of_compare hscope
      cases s with
      | none => exact codePoints_lt_of_compare hname
      | some s => exact Or.inr ⟨rfl, codePoints_lt_of_compare hname⟩

/-- No two keys precede one another. -/
theorem QualifiedName.Precedes.asymm {a b : QualifiedName} (h : a.Precedes b) :
    ¬ b.Precedes a := by
  obtain ⟨s, n⟩ := a
  obtain ⟨t, m⟩ := b
  intro hback
  cases s with
  | none =>
      cases t with
      | none => exact List.lt_asymm h hback
      | some t => exact hback
  | some s =>
      cases t with
      | none => exact h
      | some t =>
          cases h with
          | inl hlt =>
              cases hback with
              | inl hback => exact List.lt_asymm hlt hback
              | inr hback =>
                  rw [hback.1] at hlt
                  exact List.lt_irrefl _ hlt
          | inr hlt =>
              cases hback with
              | inl hback =>
                  rw [hlt.1] at hback
                  exact List.lt_irrefl _ hback
              | inr hback => exact List.lt_asymm hlt.2 hback.2

theorem QualifiedName.not_precedes_self (a : QualifiedName) : ¬ a.Precedes a :=
  fun h => h.asymm h

/-- A key after all others is not in front of any. -/
theorem QualifiedName.compare_of_precedes {a b : QualifiedName} (h : a.Precedes b) :
    compare b a = .gt := by
  cases hcompare : compare b a with
  | lt => exact absurd (precedes_of_compare hcompare) h.asymm
  | eq =>
      rw [Std.LawfulEqOrd.eq_of_compare hcompare] at h
      exact absurd h a.not_precedes_self
  | gt => rfl

end ProviderTypes
