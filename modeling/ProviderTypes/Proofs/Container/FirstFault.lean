import ProviderTypes.Proofs.Container.Construction

/-!
# ProviderTypes.Proofs.Container.FirstFault

Which lists of parts make a container, and what is said of the others.  Parts are
judged one after the other, each by those before it: a variant has a fault when its
number is not its position or its name is taken, a field when its name is taken.  Parts
without a fault are kept as they are; of any others, the first that has a fault is the
one that the error tells (`construction_exact`).
-/

namespace ProviderTypes

section
variable {α β ε : Type} {fault : List α → α → ε → Prop} {l : List α} {a : α} {e : ε}

/-! ## the first fault -/

/-- The fault of the first part that has one; a part is judged by the parts before it. -/
def FirstFault (fault : List α → α → ε → Prop) (l : List α) (e : ε) : Prop :=
  ∃ i a, l[i]? = some a ∧ fault (l.take i) a e ∧
    ∀ j < i, ∀ b, l[j]? = some b → ∀ d, ¬ fault (l.take j) b d

theorem not_firstFault_nil : ¬ FirstFault fault [] e := by
  rintro ⟨i, a, ha, -⟩
  cases ha

/-- The first fault is that of the first part, or else that of the others, which have one more part
before them. -/
theorem firstFault_cons :
    FirstFault fault (a :: l) e ↔
      fault [] a e ∨
        (∀ d, ¬ fault [] a d) ∧ FirstFault (fun before => fault (a :: before)) l e := by
  constructor
  · rintro ⟨i, b, hb, hfault, hfirst⟩
    cases i with
    | zero =>
        cases hb
        exact Or.inl hfault
    | succ i =>
        refine Or.inr ⟨hfirst 0 i.succ_pos a rfl, i, b, hb, hfault, fun j hj => ?_⟩
        exact hfirst (j + 1) (Nat.succ_lt_succ hj)
  · rintro (hfault | ⟨hnone, i, b, hb, hfault, hfirst⟩)
    · exact ⟨0, a, rfl, hfault, fun j hj => absurd hj j.not_lt_zero⟩
    · refine ⟨i + 1, b, hb, hfault, fun j hj c hc => ?_⟩
      cases j with
      | zero =>
          cases hc
          exact hnone
      | succ j => exact hfirst j (Nat.lt_of_succ_lt_succ hj) c hc

/-- A construction accepts the well-formed lists of parts, keeps their parts, and refuses all others
for the first fault. -/
structure Constructs (build : List α → Except ε β) (parts : β → List α)
    (WellFormed : List α → Prop) (fault : List α → α → ε → Prop) : Prop where
  accepts : ∀ l, (∃ b, build l = .ok b) ↔ WellFormed l
  keeps : ∀ l b, build l = .ok b → parts b = l
  refuses : ∀ l e, build l = .error e ↔ FirstFault fault l e

end

/-! ## repeated names -/

section
variable {α : Type} {name : α → String} {error : String → FormatError}

/-- The name of a part is that of one before it. -/
def Repeats (name : α → String) (error : String → FormatError) (before : List α) (a : α)
    (e : FormatError) : Prop :=
  name a ∈ before.map name ∧ e = error (name a)

/-- The first repetition is found, where some names were seen before. -/
theorem map_firstRepeatFrom?_eq_some_iff {seen : List String} {l : List α} {e : FormatError} :
    (firstRepeatFrom? seen (l.map name)).map error = some e ↔
      FirstFault (fun before a d => name a ∈ before.map name ++ seen ∧ d = error (name a)) l e := by
  induction l generalizing seen with
  | nil => simp [firstRepeatFrom?, not_firstFault_nil]
  | cons a l ih =>
      rw [firstFault_cons, List.map_cons, firstRepeatFrom?]
      by_cases h : name a ∈ seen
      · simp [h, eq_comm]
      · -- for the parts behind this one its name is taken
        rw [if_neg h, ih]
        simp [h, or_left_comm]

/-- The first name that repeats an earlier one is the fault. -/
theorem map_firstRepeat?_eq_some_iff {l : List α} {e : FormatError} :
    (firstRepeat? (l.map name)).map error = some e ↔ FirstFault (Repeats name error) l e := by
  rw [firstRepeat?, map_firstRepeatFrom?_eq_some_iff]
  simp only [List.append_nil]
  rfl

end

/-- A record is refused for the first field that repeats a name. -/
theorem Record.ofFields_eq_error {kind : RecordKind} {fields : List Field} {e : FormatError} :
    Record.ofFields kind fields = .error e ↔
      (firstRepeat? (fields.map Field.name)).map (.repeatedField kind) = some e := by
  unfold ofFields
  split
  · next h => simp [h]
  · next name h => simp [h]

/-- Fields make a record when their names are distinct. -/
theorem Record.constructs (kind : RecordKind) :
    Constructs (Record.ofFields kind) Record.fields (fun fields => (fields.map Field.name).Nodup)
      (Repeats Field.name (.repeatedField kind)) where
  accepts := Record.exists_ofFields_iff kind
  keeps _ _ h := Record.ofFields_eq_ok.1 h
  refuses _ _ := Record.ofFields_eq_error.trans map_firstRepeat?_eq_some_iff

namespace Union

/-! ## numbered variants -/

/-- The number of a variant is not its position, or it is and the name is taken. -/
def Misplaced (before : List (Int × Variant)) (p : Int × Variant) (e : FormatError) : Prop :=
  p.1 ≠ before.length ∧ e = .discriminant p.2.name p.1 before.length ∨
    p.1 = before.length ∧ Repeats (fun q => q.2.name) .repeatedVariant before p e

def numbered (u : Union) : List (Int × Variant) := numberFrom 0 u.variants

/-- The same of variants that are numbered from `start` while some names are taken. -/
def MisplacedFrom (start : Nat) (seen : List String) (before : List (Int × Variant))
    (p : Int × Variant) (e : FormatError) : Prop :=
  p.1 ≠ (start + before.length : Nat) ∧
      e = .discriminant p.2.name p.1 (start + before.length : Nat) ∨
    p.1 = (start + before.length : Nat) ∧
      p.2.name ∈ before.map (fun q => q.2.name) ++ seen ∧ e = .repeatedVariant p.2.name

/-- Behind the first variant the numbers go on from the next, and its name was seen. -/
theorem misplacedFrom_cons (start : Nat) (seen : List String) (q : Int × Variant) :
    (fun before => MisplacedFrom start seen (q :: before)) =
      MisplacedFrom (start + 1) (q.2.name :: seen) := by
  funext before p e
  have hlength : start + (q :: before).length = start + 1 + before.length := by
    rw [List.length_cons, Nat.add_comm before.length 1, Nat.add_assoc]
  rw [MisplacedFrom, MisplacedFrom, hlength]
  simp [or_left_comm]

/-- The check of variants finds the first misplaced one. -/
theorem fault?_eq_some_iff {start : Nat} {seen : List String} {l : List (Int × Variant)}
    {e : FormatError} :
    fault? start seen l = some e ↔ FirstFault (MisplacedFrom start seen) l e := by
  -- Each variant behind the first has the next number, and one more name is taken.
  induction l generalizing start seen with
  | nil => simp [fault?, not_firstFault_nil]
  | cons p l ih =>
      obtain ⟨number, v⟩ := p
      rw [firstFault_cons, misplacedFrom_cons, ← ih, fault?]
      by_cases hnumber : number = start
      · by_cases hname : v.name ∈ seen
        · simp [MisplacedFrom, hnumber, hname, eq_comm]
        · simp [MisplacedFrom, hnumber, hname]
      · simp [MisplacedFrom, hnumber, eq_comm]

/-- A union is refused for its first misplaced variant. -/
theorem ofNumbered_eq_error {l : List (Int × Variant)} {e : FormatError} :
    ofNumbered l = .error e ↔ fault? 0 [] l = some e := by
  unfold ofNumbered
  split
  · next d h => simp [h]
  · next h => simp [h]

theorem misplacedFrom_zero : MisplacedFrom 0 [] = Misplaced := by
  funext before p e
  simp [MisplacedFrom, Misplaced, Repeats]

/-- Variants without a fault have the numbers that they would be given. -/
theorem numberFrom_of_fault? {start : Nat} {seen : List String} {l : List (Int × Variant)}
    (h : fault? start seen l = none) : numberFrom start (l.map Prod.snd) = l := by
  induction l generalizing start seen with
  | nil => rfl
  | cons p l ih =>
      obtain ⟨number, v⟩ := p
      rw [fault?] at h
      split at h
      · cases h
      · next hnumber =>
        split at h
        · cases h
        · rw [List.map_cons, numberFrom, ih h, Decidable.not_not.1 hnumber]
          rfl

/-- The numbers follow one another. -/
theorem map_fst_numberFrom (start : Nat) (vs : List Variant) :
    (numberFrom start vs).map Prod.fst = (List.range' start vs.length).map Int.ofNat := by
  induction vs generalizing start with
  | nil => rfl
  | cons v vs ih => rw [numberFrom, List.map_cons, ih, List.length_cons, List.range'_succ]; rfl

/-- The variants of a union are those that it is made of, with their numbers. -/
theorem ofNumbered_eq_ok {l : List (Int × Variant)} {u : Union} :
    ofNumbered l = .ok u ↔ u.numbered = l := by
  constructor
  · intro h
    unfold ofNumbered at h
    split at h
    · cases h
    · next hfault =>
      cases h
      exact numberFrom_of_fault? hfault
  · rintro rfl
    exact ofVariants_of_nodup u.distinct

/-- Variants are numbered as in a union when their numbers are 0, 1, 2 and so on. -/
theorem numberFrom_zero_eq_iff {l : List (Int × Variant)} :
    numberFrom 0 (l.map Prod.snd) = l ↔
      l.map Prod.fst = (List.range l.length).map Int.ofNat := by
  have hnumbers : (numberFrom 0 (l.map Prod.snd)).map Prod.fst =
      (List.range l.length).map Int.ofNat := by
    rw [map_fst_numberFrom, List.length_map, List.range_eq_range']
  constructor
  · intro h
    rwa [h] at hnumbers
  · intro h
    rw [List.zip_of_prod (hnumbers.trans h.symm) (map_snd_numberFrom _ 0)]
    exact (List.zip_of_prod rfl rfl).symm

/-- A union is built exactly from distinct names that are numbered from zero without gaps. -/
theorem exists_ofNumbered_iff (l : List (Int × Variant)) :
    (∃ u, ofNumbered l = .ok u) ↔
      l.map Prod.fst = (List.range l.length).map Int.ofNat ∧
        (l.map fun p => p.2.name).Nodup := by
  have hnames : l.map (fun p => p.2.name) = (l.map Prod.snd).map Variant.name :=
    List.map_map.symm
  simp only [ofNumbered_eq_ok, ← numberFrom_zero_eq_iff, hnames]
  constructor
  · rintro ⟨u, rfl⟩
    rw [numbered, map_snd_numberFrom]
    exact ⟨rfl, u.distinct⟩
  · rintro ⟨hnumbered, hnodup⟩
    exact ⟨⟨l.map Prod.snd, hnodup⟩, hnumbered⟩

/-- Numbered variants make a union when their numbers are their positions and their names are
distinct. -/
theorem constructs_ofNumbered :
    Constructs ofNumbered numbered
      (fun l => l.map Prod.fst = (List.range l.length).map Int.ofNat ∧
        (l.map fun p => p.2.name).Nodup)
      Misplaced where
  accepts := exists_ofNumbered_iff
  keeps _ _ h := ofNumbered_eq_ok.1 h
  refuses _ _ := by rw [ofNumbered_eq_error, fault?_eq_some_iff, misplacedFrom_zero]

/-! ## variants in order -/

/-- The variants of a union are those that it is made of. -/
theorem ofVariants_eq_ok {vs : List Variant} {u : Union} :
    ofVariants vs = .ok u ↔ u.variants = vs := by
  constructor
  · intro h
    rw [← map_snd_numberFrom u.variants 0, ← map_snd_numberFrom vs 0]
    exact congrArg (List.map Prod.snd) (ofNumbered_eq_ok.1 h)
  · rintro rfl
    exact ofVariants_of_nodup u.distinct

/-- Variants make a union when their names are distinct. -/
theorem constructs_ofVariants :
    Constructs ofVariants Union.variants (fun vs => (vs.map Variant.name).Nodup)
      (Repeats Variant.name .repeatedVariant) where
  accepts vs := by
    constructor
    · rintro ⟨u, hu⟩
      rw [← ofVariants_eq_ok.1 hu]
      exact u.distinct
    · intro h
      exact ⟨_, ofVariants_of_nodup h⟩
  keeps _ _ h := ofVariants_eq_ok.1 h
  refuses vs e := by
    rw [ofVariants, ofNumbered_eq_error, fault?_numberFrom]
    exact map_firstRepeat?_eq_some_iff

end Union

/-! ## all constructions -/

/-- Unions are made of variants with the numbers 0, 1, 2 and so on and distinct names, or of
variants without numbers and with distinct names, and records of fields with distinct names.  They
have these parts, and any others are refused for the first fault. -/
theorem construction_exact :
    Constructs Union.ofNumbered Union.numbered
        (fun l => l.map Prod.fst = (List.range l.length).map Int.ofNat ∧
          (l.map fun p => p.2.name).Nodup)
        Union.Misplaced ∧
      Constructs Union.ofVariants Union.variants (fun vs => (vs.map Variant.name).Nodup)
        (Repeats Variant.name .repeatedVariant) ∧
      ∀ kind, Constructs (Record.ofFields kind) Record.fields
        (fun fields => (fields.map Field.name).Nodup) (Repeats Field.name (.repeatedField kind)) :=
  ⟨Union.constructs_ofNumbered, Union.constructs_ofVariants, Record.constructs⟩

/-- The number of a variant is looked at before its name. -/
example : Union.ofNumbered [(0, ⟨"a", .unit⟩), (2, ⟨"a", .unit⟩), (7, ⟨"b", .unit⟩)] =
    .error (.discriminant "a" 2 1) := by rfl

end ProviderTypes
