import ProviderTypes.Proofs.Rust.Outline
import Mathlib.Data.List.Induction

/-!
# ProviderTypes.Proofs.Container.Places

Where a container refers to which names.  A place is a path from the container down
to a reference: the number of one of its formats, and the position in that format
(`Container.refAt?`).  Places are compared as they are met from the left.

The references that `Container.refs` lists are the names at the places of the
container (`Container.mem_places`), place after place (`Container.pairwise_places`,
`Container.map_snd_places`).  A list of things met at places in order keeps, without
its repetitions, the order in which each is met first (`pairwise_eraseDups`).
-/

namespace ProviderTypes

/-! ## names at places -/

/-- The name of a reference. -/
def Format.refName? : Format → Option String
  | .ref name _ => some name
  | _ => none

/-- The name that a format refers to at a position. -/
def Format.refAt? (f : Format) (position : List Nat) : Option String :=
  (f.at? position).bind refName?

/-- The name that a container refers to at a place. -/
def Container.refAt? (c : Container) : List Nat → Option String
  | [] => none
  | i :: position => c.formats[i]?.bind fun f => f.refAt? position

/-- The first place where a container refers to a name. -/
def Container.FirstAt (c : Container) (name : String) (place : List Nat) : Prop :=
  c.refAt? place = some name ∧ ∀ other, c.refAt? other = some name → ¬ other < place

/-! ## places in order -/

/-- Places in the part of this number. -/
def under (i : Nat) (places : List (List Nat × String)) : List (List Nat × String) :=
  places.map fun p => (i :: p.1, p.2)

namespace Format

mutual
/-- The positions of the references of a format, in order, and their names. -/
def places : Format → List (List Nat × String)
  | .option inner => under 0 inner.places
  | .seq element => under 0 element.places
  | .map key value => under 0 key.places ++ under 1 value.places
  | .tuple elements => placesFrom 0 elements
  | .array element _ _ => under 0 element.places
  | .ref name _ => [([], name)]
  | _ => []
/-- The places in formats that are numbered from `start`, in order, and their names. -/
def placesFrom (start : Nat) : List Format → List (List Nat × String)
  | [] => []
  | f :: rest => under start f.places ++ placesFrom (start + 1) rest
end

/-- The places below formats are those of each, under its number. -/
theorem placesFrom_eq (start : Nat) (fs : List Format) :
    placesFrom start fs = (fs.zipIdx start).flatMap fun p => under p.2 p.1.places := by
  induction fs generalizing start with
  | nil => rfl
  | cons f fs ih => rw [placesFrom, ih, List.zipIdx_cons, List.flatMap_cons]

/-- A format that is no reference has the places of its parts. -/
theorem places_eq_placesFrom {f : Format} (h : f.refName? = none) :
    f.places = placesFrom 0 f.parts := by
  cases f <;> simp_all [refName?, places, parts, placesFrom]

/-- A format that is no reference has the references of its parts. -/
theorem refs_eq_refsAll {f : Format} (h : f.refName? = none) : f.refs = refsAll f.parts := by
  cases f <;> simp_all [refName?, refs, parts, refsAll]

theorem eq_ref_of_refName? {f : Format} {name : String} (h : f.refName? = some name) :
    ∃ named, f = .ref name named := by
  unfold refName? at h
  split at h
  · cases h
    exact ⟨_, rfl⟩
  · contradiction

/-- What holds of a format as soon as it holds of its parts, holds of every format. -/
theorem induction_parts {P : Format → Prop} (h : ∀ f, (∀ g ∈ f.parts, P g) → P f) (f : Format) :
    P f := by
  apply h
  intro g hg
  have hsize : sizeOf g < sizeOf f := by
    cases f <;> simp only [parts, List.mem_cons, List.not_mem_nil, or_false] at hg
    case tuple elements =>
      have hlt := List.sizeOf_lt_of_mem hg
      simp only [tuple.sizeOf_spec]
      omega
    case map key value => rcases hg with rfl | rfl <;> simp only [map.sizeOf_spec] <;> omega
    case array element size positive =>
      subst hg
      simp only [array.sizeOf_spec]
      omega
    all_goals
      subst hg
      simp
  exact induction_parts h g
termination_by sizeOf f

/-! ## places and names -/

/-- The places under a number start with it. -/
theorem mem_under {i : Nat} {p : List Nat × String} {places : List (List Nat × String)} :
    p ∈ under i places ↔ ∃ position, p.1 = i :: position ∧ (position, p.2) ∈ places := by
  obtain ⟨place, name⟩ := p
  simp [under, eq_comm, and_comm]

/-- A place below formats leads into one of them. -/
theorem mem_placesFrom {fs : List Format} {place : List Nat} {name : String} :
    (place, name) ∈ placesFrom 0 fs ↔
      ∃ i position f, place = i :: position ∧ fs[i]? = some f ∧ (position, name) ∈ f.places := by
  simp only [placesFrom_eq, List.mem_flatMap, mem_under, Prod.exists, List.mem_zipIdx_iff_getElem?]
  constructor
  · rintro ⟨f, i, hf, position, rfl, hp⟩
    exact ⟨i, position, f, rfl, hf, hp⟩
  · rintro ⟨i, position, f, rfl, hf, hp⟩
    exact ⟨f, i, hf, position, rfl, hp⟩

/-- The places of a format are the positions where it refers to a name. -/
theorem mem_places {f : Format} {position : List Nat} {name : String} :
    (position, name) ∈ f.places ↔ f.refAt? position = some name := by
  induction position generalizing f with
  | nil =>
      have hat : f.refAt? [] = f.refName? := rfl
      rw [hat]
      cases href : f.refName? with
      | none => simp [places_eq_placesFrom href, mem_placesFrom]
      | some other =>
          obtain ⟨named, rfl⟩ := eq_ref_of_refName? href
          simp [places, eq_comm]
  | cons i position ih =>
      have hat : f.refAt? (i :: position) = f.parts[i]?.bind fun g => g.refAt? position := by
        rw [refAt?, at?, Option.bind_assoc]
        rfl
      rw [hat, Option.bind_eq_some_iff]
      cases href : f.refName? with
      | none =>
          rw [places_eq_placesFrom href, mem_placesFrom]
          simp [ih]
      | some other =>
          obtain ⟨named, rfl⟩ := eq_ref_of_refName? href
          simp [places, parts]

/-- In the order of the places stand the references, for formats where they do. -/
theorem map_snd_placesFrom {fs : List Format} (h : ∀ f ∈ fs, f.places.map Prod.snd = f.refs)
    (start : Nat) : (placesFrom start fs).map Prod.snd = refsAll fs := by
  induction fs generalizing start with
  | nil => rfl
  | cons f fs ih =>
      rw [List.forall_mem_cons] at h
      rw [placesFrom, refsAll, List.map_append, ih h.2, ← h.1]
      simp [under]

/-- The names at the places of a format are its references. -/
theorem map_snd_places (f : Format) : f.places.map Prod.snd = f.refs := by
  induction f using induction_parts with
  | h f ih =>
      cases href : f.refName? with
      | none => rw [places_eq_placesFrom href, refs_eq_refsAll href, map_snd_placesFrom ih]
      | some name =>
          obtain ⟨named, rfl⟩ := eq_ref_of_refName? href
          rfl

/-- The places below formats are in order, for formats whose places are. -/
theorem pairwise_placesFrom {fs : List Format}
    (h : ∀ f ∈ fs, f.places.Pairwise fun p q => p.1 < q.1) (start : Nat) :
    (placesFrom start fs).Pairwise fun p q => p.1 < q.1 := by
  rw [placesFrom_eq, List.pairwise_flatMap]
  constructor
  · intro p hp
    have hmem : p.1 ∈ fs := by
      rw [← List.zipIdx_map_fst start fs]
      exact List.mem_map_of_mem hp
    rw [under, List.pairwise_map]
    exact (h p.1 hmem).imp fun hlt => List.cons_lt_cons_iff.2 (Or.inr ⟨rfl, hlt⟩)
  · have hnumbers : (fs.zipIdx start).Pairwise fun p q => p.2 < q.2 := by
      rw [← List.pairwise_map (f := Prod.snd) (R := (· < ·)), List.zipIdx_map_snd]
      exact List.pairwise_lt_range'
    refine hnumbers.imp fun hlt p hp q hq => ?_
    obtain ⟨_, hp, -⟩ := mem_under.1 hp
    obtain ⟨_, hq, -⟩ := mem_under.1 hq
    rw [hp, hq]
    exact List.cons_lt_cons_iff.2 (Or.inl hlt)

/-- The places of a format are in order. -/
theorem pairwise_places (f : Format) : f.places.Pairwise fun p q => p.1 < q.1 := by
  induction f using induction_parts with
  | h f ih =>
      cases href : f.refName? with
      | none =>
          rw [places_eq_placesFrom href]
          exact pairwise_placesFrom ih 0
      | some name =>
          obtain ⟨named, rfl⟩ := eq_ref_of_refName? href
          simp [places]

end Format

/-! ## first occurrences -/

section
variable {α β : Type} {R : α → α → Prop} {pairs : List (α × β)} {p : α × β} {a : α} {b : β}

/-- The pair of these two is the first with its second part. -/
def FirstOf (R : α → α → Prop) (pairs : List (α × β)) (b : β) (a : α) : Prop :=
  (a, b) ∈ pairs ∧ ∀ other, (other, b) ∈ pairs → ¬ R other a

/-- A pair that comes last changes nothing for the pairs before it. -/
theorem FirstOf.append (hasymm : ∀ a b, R a b → ¬ R b a) (h : FirstOf R pairs b a)
    (hlast : ∀ q ∈ pairs, R q.1 p.1) : FirstOf R (pairs ++ [p]) b a := by
  refine ⟨List.mem_append_left _ h.1, fun other hother => ?_⟩
  cases List.mem_append.1 hother with
  | inl hother => exact h.2 other hother
  | inr hother =>
      rw [← List.mem_singleton.1 hother] at hlast
      exact hasymm _ _ (hlast _ h.1)

/-- A name that was not met before is met first at the end. -/
theorem firstOf_last (hasymm : ∀ a b, R a b → ¬ R b a) (h : p.2 ∉ pairs.map Prod.snd) :
    FirstOf R (pairs ++ [p]) p.2 p.1 := by
  refine ⟨by simp, fun other hother hlt => ?_⟩
  cases List.mem_append.1 hother with
  | inl hother => exact h (List.mem_map.2 ⟨_, hother, rfl⟩)
  | inr hother =>
      rw [← List.mem_singleton.1 hother] at hlt
      exact hasymm _ _ hlt hlt

/-- Without repetitions, the second parts of pairs that increase in their first parts stand in the
order in which each is met first. -/
theorem pairwise_eraseDups [BEq β] [LawfulBEq β] (hasymm : ∀ a b, R a b → ¬ R b a)
    (h : pairs.Pairwise fun p q => R p.1 q.1) :
    (∀ b ∈ (pairs.map Prod.snd).eraseDups, ∃ a, FirstOf R pairs b a) ∧
      (pairs.map Prod.snd).eraseDups.Pairwise fun b c =>
        ∃ a d, FirstOf R pairs b a ∧ FirstOf R pairs c d ∧ R a d := by
  -- From the end, since a pair that comes last leaves the first places before it alone.
  induction pairs using List.reverseRecOn with
  | nil => simp
  | append_singleton pairs p ih =>
      obtain ⟨hpairs, -, hlast⟩ := List.pairwise_append.1 h
      obtain ⟨hfirst, hordered⟩ := ih hpairs
      simp only [List.mem_singleton, forall_eq] at hlast
      have hordered' : (pairs.map Prod.snd).eraseDups.Pairwise fun b c =>
          ∃ a d, FirstOf R (pairs ++ [p]) b a ∧ FirstOf R (pairs ++ [p]) c d ∧ R a d :=
        hordered.imp fun hbefore => by
          obtain ⟨a, d, ha, hd, had⟩ := hbefore
          exact ⟨a, d, ha.append hasymm hlast, hd.append hasymm hlast, had⟩
      have hfirst' : ∀ b ∈ (pairs.map Prod.snd).eraseDups, ∃ a, FirstOf R (pairs ++ [p]) b a := by
        intro b hb
        obtain ⟨a, ha⟩ := hfirst b hb
        exact ⟨a, ha.append hasymm hlast⟩
      rw [List.map_append, List.map_singleton, List.eraseDups_append]
      by_cases hp : p.2 ∈ pairs.map Prod.snd
      · have hnone : ([p.2].removeAll (pairs.map Prod.snd)).eraseDups = [] := by
          simp [List.removeAll, hp]
        rw [hnone, List.append_nil]
        exact ⟨hfirst', hordered'⟩
      · have hone : ([p.2].removeAll (pairs.map Prod.snd)).eraseDups = [p.2] := by
          simp [List.removeAll, hp, List.eraseDups_cons]
        have hnew : FirstOf R (pairs ++ [p]) p.2 p.1 := firstOf_last hasymm hp
        rw [hone, List.pairwise_append, List.forall_mem_append]
        simp only [List.mem_singleton, forall_eq, List.pairwise_singleton]
        refine ⟨⟨hfirst', p.1, hnew⟩, hordered', trivial, fun b hb => ?_⟩
        obtain ⟨a, ha⟩ := hfirst b hb
        exact ⟨a, p.1, ha.append hasymm hlast, hnew, hlast _ ha.1⟩

end

/-! ## containers -/

namespace Container

/-- The places of the references of a container, in order, and their names. -/
def places (c : Container) : List (List Nat × String) := Format.placesFrom 0 c.formats

/-- A name stands at a place of a container exactly where the container refers to it. -/
theorem mem_places {c : Container} {place : List Nat} {name : String} :
    (place, name) ∈ c.places ↔ c.refAt? place = some name := by
  rw [places, Format.mem_placesFrom]
  cases place with
  | nil => simp [refAt?]
  | cons i position => simp [refAt?, Option.bind_eq_some_iff, Format.mem_places]

/-- The places of a container are in order. -/
theorem pairwise_places (c : Container) : c.places.Pairwise fun p q => p.1 < q.1 :=
  Format.pairwise_placesFrom (fun f _ => f.pairwise_places) 0

/-- A container has the references of its formats. -/
theorem refs_eq_refsAll (c : Container) : c.refs = Format.refsAll c.formats := by
  have hrecord : ∀ r : Record, r.refs = (r.fields.map Field.value).flatMap Format.refs :=
    fun r => (List.flatMap_map ..).symm
  have hshape : ∀ s : Shape, s.refs = s.formats.flatMap Format.refs := by
    intro s
    cases s <;> simp [Shape.refs, Shape.formats, hrecord, Format.refsAll_eq_flatMap]
  rw [Format.refsAll_eq_flatMap]
  cases c <;> simp [refs, formats, hrecord, hshape, List.flatMap_assoc]

/-- The names at the places of a container are its references. -/
theorem map_snd_places (c : Container) : c.places.map Prod.snd = c.refs := by
  rw [places, Format.map_snd_placesFrom (fun f _ => f.map_snd_places), refs_eq_refsAll]

/-- The references of a container are the names at its places. -/
theorem mem_refs_iff {c : Container} {name : String} :
    name ∈ c.refs ↔ ∃ place, c.refAt? place = some name := by
  simp [← map_snd_places, mem_places]

end Container

end ProviderTypes
