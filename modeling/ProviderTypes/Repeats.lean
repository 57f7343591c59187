/-!
# ProviderTypes.Repeats

The first repetition in a list.

Main statement: a list has none exactly when its members are distinct
(`firstRepeat?_eq_none_iff`).
-/

namespace ProviderTypes

variable {α : Type} [DecidableEq α]

/-- The first member that is in `seen` or equals a member before it. -/
def firstRepeatFrom? (seen : List α) : List α → Option α
  | [] => none
  | a :: rest => if a ∈ seen then some a else firstRepeatFrom? (a :: seen) rest

/-- The first member that equals a member before it. -/
def firstRepeat? (l : List α) : Option α := firstRepeatFrom? [] l

/-- Nothing is repeated exactly when all are distinct and none was seen before. -/
theorem firstRepeatFrom?_eq_none_iff {seen l : List α} :
    firstRepeatFrom? seen l = none ↔ l.Nodup ∧ ∀ a ∈ l, a ∉ seen := by
  induction l generalizing seen with
  | nil => simp [firstRepeatFrom?]
  | cons a rest ih =>
    by_cases h : a ∈ seen
    · simp [firstRepeatFrom?, h]
    · simp only [firstRepeatFrom?, if_neg h, ih, List.nodup_cons, List.mem_cons]
      constructor
      · rintro ⟨hn, hs⟩
        refine ⟨⟨fun hm => (hs a hm) (Or.inl rfl), hn⟩, ?_⟩
        rintro b (rfl | hb)
        · exact h
        · exact fun hbs => hs b hb (Or.inr hbs)
      · rintro ⟨⟨ha, hn⟩, hs⟩
        refine ⟨hn, fun b hb hbs => ?_⟩
        rcases hbs with rfl | hbs
        · exact ha hb
        · exact hs b (Or.inr hb) hbs

/-- A list has no repetition exactly when its members are distinct. -/
theorem firstRepeat?_eq_none_iff {l : List α} : firstRepeat? l = none ↔ l.Nodup := by
  simp [firstRepeat?, firstRepeatFrom?_eq_none_iff]

end ProviderTypes
