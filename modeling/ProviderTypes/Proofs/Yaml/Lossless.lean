import ProviderTypes.Proofs.Members.NameOrder
import ProviderTypes.Proofs.Registry.History
import ProviderTypes.Proofs.Yaml.ReadBack

/-!
# ProviderTypes.Proofs.Yaml.Lossless

The data of a registry loses nothing but metadata.  Data is equal exactly when what
it stands for is equal without metadata (`Format.plain_injective`,
`Container.plain_eq_iff`, `Registry.plain_eq_iff`).  No mapping in it has a key
twice (`Consistent.distinct_plain`), so a reader that keeps one value for each key
misses none.
-/

namespace ProviderTypes

/-! ## metadata -/

/-- The data of a record do not depend on its metadata. -/
theorem Record.plain_bare (r : Record) : r.bare.plain = r.plain := by
  simp [plain, bare]

theorem Shape.plain_bare (s : Shape) : s.bare.plain = s.plain := by
  cases s with
  | record r => exact congrArg (Plain.single "STRUCT") r.plain_bare
  | _ => rfl

theorem Union.plainFrom_bare (vs : List Variant) (start : Nat) :
    plainFrom start (vs.map Variant.bare) = plainFrom start vs := by
  induction vs generalizing start with
  | nil => rfl
  | cons v vs ih =>
      rw [List.map_cons, plainFrom, ih, Variant.name_bare, Variant.bare, Shape.plain_bare,
        plainFrom]

/-- The data of a container has no metadata. -/
theorem Container.plain_bare (c : Container) : c.bare.plain = c.plain := by
  cases c with
  | record r => exact congrArg (Plain.single "STRUCT") r.plain_bare
  | union u =>
      rw [bare, plain, plain, Union.bare, Union.plainFrom_bare]
  | _ => rfl

/-! ## equal data -/

/-- Different formats have different data. -/
theorem Format.plain_injective : Function.Injective Format.plain := by
  intro f g h
  have hread := congrArg ofPlain? h
  rwa [ofPlain?_plain, ofPlain?_plain, Option.some.injEq] at hread

/-- The data of a shape tell it up to metadata. -/
theorem Shape.plain_eq_iff (s t : Shape) : s.plain = t.plain ↔ s.bare = t.bare := by
  constructor
  · intro h
    have hread := congrArg ofPlain? h
    rwa [ofPlain?_plain, ofPlain?_plain, Option.some.injEq] at hread
  · intro h
    rw [← s.plain_bare, h, t.plain_bare]

/-- Containers have equal data exactly when they are structurally equal. -/
theorem Container.plain_eq_iff (c d : Container) : c.plain = d.plain ↔ c.Same d := by
  constructor
  · intro h
    have hread := congrArg ofPlain? h
    rwa [ofPlain?_plain, ofPlain?_plain, Option.some.injEq] at hread
  · intro h
    rw [← c.plain_bare, h, d.plain_bare]

/-- Registries have equal data exactly when they list the same full names with structurally equal
containers. -/
theorem Registry.plain_eq_iff (a b : Registry) :
    a.plain = b.plain ↔
      List.Forall₂ (fun d e => d.1.fullName = e.1.fullName ∧ d.2.Same e.2) a.items b.items := by
  rw [plain, plain, Plain.map.injEq, map_eq_map_iff_forall₂]
  simp only [Prod.mk.injEq, Scalar.text.injEq, Container.plain_eq_iff]

/-! ## distinct keys -/

/-- No mapping has a key twice, at any depth. -/
inductive Plain.Distinct : Plain → Prop where
  | scalar (s : Scalar) : Distinct (.scalar s)
  | seq {items : List Plain} (each : ∀ p ∈ items, Distinct p) : Distinct (.seq items)
  | map {entries : List (Scalar × Plain)} (keys : (entries.map Prod.fst).Nodup)
      (each : ∀ e ∈ entries, Distinct e.2) : Distinct (.map entries)

/-- A mapping of one key has no key twice. -/
theorem Plain.Distinct.single {p : Plain} (h : p.Distinct) (key : String) :
    (Plain.single key p).Distinct :=
  .map (List.nodup_singleton _) (List.forall_mem_singleton.2 h)

theorem Plain.Distinct.pair {p q : Plain} (hp : p.Distinct) (hq : q.Distinct) {key other : Scalar}
    (h : key ≠ other) : (Plain.map [(key, p), (other, q)]).Distinct := by
  refine .map (by simpa using h) ?_
  simp [hp, hq]

mutual
/-- No mapping in the data of a format has a key twice. -/
theorem Format.distinct_plain : (f : Format) → f.plain.Distinct
  | .unit | .bool | .char | .str | .bytes | .int _ _ | .float _ => .scalar _
  | .option inner => (distinct_plain inner).single _
  | .seq element => (distinct_plain element).single _
  | .map key value => ((distinct_plain key).pair (distinct_plain value) (by decide)).single _
  | .tuple elements => (Plain.Distinct.seq (distinct_plainAll elements)).single _
  | .array element _ _ => ((distinct_plain element).pair (.scalar _) (by decide)).single _
  | .ref _ _ => (Plain.Distinct.scalar _).single _
theorem Format.distinct_plainAll : (fs : List Format) → ∀ p ∈ plainAll fs, p.Distinct
  | [] => nofun
  | f :: fs => List.forall_mem_cons.2 ⟨distinct_plain f, distinct_plainAll fs⟩
end

/-- No mapping in the data of a record has a key twice. -/
theorem Record.distinct_plain (r : Record) : r.plain.Distinct := by
  refine .seq fun p hp => ?_
  obtain ⟨f, -, rfl⟩ := List.mem_map.1 hp
  exact f.value.distinct_plain.single _

/-- No mapping in the data of a shape has a key twice. -/
theorem Shape.distinct_plain (s : Shape) : s.plain.Distinct := by
  cases s with
  | unit => exact .scalar _
  | newtype f => exact f.distinct_plain.single _
  | tuple fs => exact (Plain.Distinct.seq (Format.distinct_plainAll fs)).single _
  | record r => exact r.distinct_plain.single _

/-- The keys of variants are their numbers. -/
theorem Union.keys_plainFrom (vs : List Variant) (start : Nat) :
    (plainFrom start vs).map Prod.fst =
      (List.range' start vs.length).map fun n => .int (n : Int) := by
  induction vs generalizing start with
  | nil => rfl
  | cons v vs ih =>
      rw [plainFrom, List.map_cons, ih, List.length_cons, List.range'_succ, List.map_cons]

/-- Variants have numbers of their own, so none takes the place of another. -/
theorem Union.distinct_plainFrom (vs : List Variant) (start : Nat) :
    (Plain.map (plainFrom start vs)).Distinct := by
  have heach : ∀ start, ∀ e ∈ plainFrom start vs, e.2.Distinct := by
    induction vs with
    | nil => exact fun start => nofun
    | cons v vs ih =>
        exact fun start => List.forall_mem_cons.2 ⟨v.shape.distinct_plain.single _, ih (start + 1)⟩
  refine .map ?_ (heach start)
  rw [keys_plainFrom]
  exact .map (fun m n h => Int.ofNat.inj (Scalar.int.inj h)) List.nodup_range'

/-- No mapping in the data of a container has a key twice. -/
theorem Container.distinct_plain (c : Container) : c.plain.Distinct := by
  cases c with
  | unit => exact .scalar _
  | newtype f => exact f.distinct_plain.single _
  | record r => exact r.distinct_plain.single _
  | union u => exact (Union.distinct_plainFrom u.variants 0).single _

namespace Registry

variable {r : Registry}

/-- The keys of a registry in its data are the full names of its entries. -/
theorem keys_plain (r : Registry) :
    ∃ entries, r.plain = .map entries ∧
      entries.map Prod.fst = r.items.map fun e => .text e.1.fullName := by
  refine ⟨_, rfl, ?_⟩
  rw [List.map_map]
  rfl

/-- No mapping in the data of a registry has a key twice. -/
theorem Consistent.distinct_plain (h : r.Consistent) : r.plain.Distinct := by
  refine .map ?_ ?_
  · have hkeys : (r.keys.map fun key => Scalar.text key.fullName).Nodup :=
      r.nodup_keys.map_on fun a ha b hb hab => h.eq_of_fullName_eq ha hb (Scalar.text.inj hab)
    rw [keys, OrderedMap.keys, List.map_map] at hkeys
    rwa [List.map_map]
  · intro p hp
    obtain ⟨e, -, rfl⟩ := List.mem_map.1 hp
    exact e.2.distinct_plain

/-- The data of a registry loses nothing but metadata.  Another registry has equal data exactly when
it lists the same full names with structurally equal containers, and these can be read back from the
data.  The data has one key for each entry, and no mapping in it has a key twice.  Formats are told
apart by their data, and so are containers and shapes that differ in more than metadata. -/
theorem plain_lossless (hr : r.Consistent) :
    (∀ other : Registry, r.plain = other.plain ↔
      List.Forall₂ (fun d e => d.1.fullName = e.1.fullName ∧ d.2.Same e.2) r.items other.items) ∧
    ofPlain? r.plain = some (r.items.map fun e => (e.1.fullName, e.2.bare)) ∧
    (∃ entries, r.plain = .map entries ∧
      entries.map Prod.fst = r.items.map fun e => .text e.1.fullName) ∧
    r.plain.Distinct ∧
    Function.Injective Format.plain ∧
    (∀ c d : Container, c.plain = d.plain ↔ c.Same d) ∧
    (∀ s t : Shape, s.plain = t.plain ↔ s.bare = t.bare) :=
  ⟨plain_eq_iff r, ofPlain?_plain r, r.keys_plain, hr.distinct_plain, Format.plain_injective,
    Container.plain_eq_iff, Shape.plain_eq_iff⟩

/-- A union, and a record of one field. -/
def described (value : Format) (description : Option String) : Registry :=
  after
    [.insert ⟨some "mode", "on"⟩ (.record
        ⟨[{ name := "at", value := value, metadata := { description } }], by simp⟩),
      .insert ⟨none, "mode"⟩ (.union ⟨[⟨"off", .unit⟩, ⟨"on", .newtype .bool⟩], by decide⟩)]
    (.empty .error)

/-- The data tells a format from another one, but not a description. -/
theorem plain_lossless_described :
    (described .str none).Consistent ∧
      (described .str none).plain = (described .str (some "The hour.")).plain ∧
      (described .str none).plain ≠ (described (.option .str) none).plain := by
  have hconsistent : (described .str none).Consistent := consistent_after _ (consistent_empty _)
  obtain ⟨hiff, -⟩ := plain_lossless hconsistent
  exact ⟨hconsistent, (hiff _).2 (by decide +kernel),
    fun h => absurd ((hiff _).1 h) (by decide +kernel)⟩

end Registry

end ProviderTypes
