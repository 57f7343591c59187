import ProviderTypes.Proofs.Members.NameOrder
import Mathlib.Data.List.Induction
import Mathlib.Tactic.Tauto

/-!
# ProviderTypes.Proofs.Members.Writing

Members written over others.  What is written last counts: a member is collected when
no later one has its name (`mem_collect_iff`), and members with distinct names are
collected as they are (`collect_eq_self`).  Members written over others take the values
of those of their names (`mem_putAll`), keep their places, and follow them where their
names are new (`names_putAll`).
-/

namespace ProviderTypes

namespace Members

variable {α : Type} {m later : Members α}

/-- Where names are distinct, the members are what is found. -/
theorem mem_iff_get? (h : m.names.Nodup) {e : String × α} : e ∈ m ↔ m.get? e.1 = some e.2 :=
  ⟨get?_of_mem h, mem_of_get?⟩

theorem get?_eq_none_iff {name : String} : m.get? name = none ↔ name ∉ m.names := by
  constructor
  · intro h hname
    obtain ⟨e, he, rfl⟩ := List.mem_map.1 hname
    have hlookup := List.lookup_eq_none_iff.1 h e he
    simp at hlookup
  · exact get?_eq_none

/-! ## one member -/

/-- A member that is written is there, beside those that have another name. -/
theorem mem_put_iff (hm : m.names.Nodup) {name : String} {value : α} {e : String × α} :
    e ∈ m.put name value ↔ e = (name, value) ∨ e ∈ m ∧ e.1 ≠ name := by
  rw [mem_iff_get? (nodup_put hm name value), mem_iff_get? hm]
  by_cases hname : e.1 = name
  · subst hname
    rw [get?_put_self, Option.some_inj]
    constructor
    · rintro rfl
      exact .inl rfl
    · rintro (he | ⟨-, hne⟩)
      · exact (congrArg Prod.snd he).symm
      · exact absurd rfl hne
  · rw [get?_put_of_ne m hname]
    constructor
    · exact fun he => .inr ⟨he, hname⟩
    · rintro (he | ⟨he, -⟩)
      · exact absurd (congrArg Prod.fst he) hname
      · exact he

/-! ## one member after the other -/

/-- The last pair is written last. -/
theorem collect_concat (pairs : List (String × α)) (e : String × α) :
    collect (pairs ++ [e]) = (collect pairs).put e.1 e.2 := by
  rw [collect, putAll, List.foldl_append]
  rfl

/-- Of the members with one name the last is collected. -/
theorem mem_collect_iff {pairs : List (String × α)} {e : String × α} :
    e ∈ collect pairs ↔
      ∃ before after, pairs = before ++ e :: after ∧ ∀ a ∈ after, a.1 ≠ e.1 := by
  -- from the end, since the last pair is written last
  induction pairs using List.reverseRecOn with
  | nil => simp [collect, putAll]
  | append_singleton pairs last ih =>
      rw [collect_concat, mem_put_iff (nodup_collect pairs), ih]
      constructor
      · rintro (rfl | ⟨⟨before, after, rfl, hafter⟩, hne⟩)
        · exact ⟨pairs, [], rfl, by simp⟩
        · refine ⟨before, after ++ [last], by simp, fun a ha => ?_⟩
          rcases List.mem_append.1 ha with ha | ha
          · exact hafter a ha
          · rw [List.mem_singleton.1 ha]
            exact Ne.symm hne
      · rintro ⟨before, after, h, hafter⟩
        induction after using List.reverseRecOn with
        | nil =>
            obtain ⟨-, hlast⟩ := List.append_inj' h rfl
            exact .inl (List.cons.inj hlast).1.symm
        | append_singleton after a _ =>
            rw [← List.cons_append, ← List.append_assoc] at h
            obtain ⟨hpairs, hlast⟩ := List.append_inj' h rfl
            refine .inr ⟨⟨before, after, hpairs, fun b hb => hafter b (by simp [hb])⟩, ?_⟩
            rw [(List.cons.inj hlast).1]
            exact Ne.symm (hafter a (by simp))

/-- Collecting brings in no member. -/
theorem mem_of_mem_collect {pairs : List (String × α)} {e : String × α} (h : e ∈ collect pairs) :
    e ∈ pairs := by
  obtain ⟨before, after, rfl, -⟩ := mem_collect_iff.1 h
  simp

/-- Members with distinct names are collected as they are. -/
theorem collect_eq_self (hm : m.names.Nodup) : collect m = m := by
  induction m using List.reverseRecOn with
  | nil => rfl
  | append_singleton m e ih =>
      obtain ⟨hnodup, -, hdisjoint⟩ := List.nodup_append.1 (by simpa [names] using hm)
      rw [collect_concat, ih hnodup, names_put_of_not_mem]
      exact fun he => hdisjoint e.1 he e.1 (by simp) rfl

/-! ## members over members -/

/-- Later members with distinct names count before what stood under their names. -/
theorem get?_putAll {later : Members α} (h : later.names.Nodup) (m : Members α) (name : String) :
    (m.putAll later).get? name = (later.get? name).or (m.get? name) := by
  induction later generalizing m with
  | nil => rfl
  | cons p rest ih =>
      obtain ⟨hp, hrest⟩ : p.1 ∉ names rest ∧ (names rest).Nodup := List.nodup_cons.1 h
      change ((m.put p.1 p.2).putAll rest).get? name = _
      rw [ih hrest, get?_cons]
      by_cases hname : name = p.1
      · rw [if_pos hname, hname, get?_eq_none hp, get?_put_self, Option.none_or, Option.some_or]
      · rw [if_neg hname, get?_put_of_ne m hname]

/-- Written members replace those of the same name and leave the others. -/
theorem mem_putAll (hm : m.names.Nodup) (hlater : later.names.Nodup) {e : String × α} :
    e ∈ m.putAll later ↔ e ∈ m ∧ e.1 ∉ later.names ∨ e ∈ later := by
  rw [mem_iff_get? (nodup_putAll hm later), get?_putAll hlater, Option.or_eq_some_iff,
    get?_eq_none_iff, mem_iff_get? hm, mem_iff_get? hlater]
  tauto

/-- Members written over others take the places of those of their names. -/
theorem putAll_perm (hm : m.names.Nodup) (hlater : later.names.Nodup) :
    (m.putAll later).Perm ((m.filter fun e => e.1 ∉ later.names) ++ later) := by
  have hnodup : ((m.filter fun e => e.1 ∉ later.names) ++ later).Nodup := by
    refine List.nodup_append.2 ⟨(hm.of_map _).filter _, hlater.of_map _, ?_⟩
    rintro e he _ hlater rfl
    have hnot : e.1 ∉ later.names := by simpa using (List.mem_filter.1 he).2
    exact hnot (List.mem_map_of_mem hlater)
  refine (List.perm_ext_iff_of_nodup ((nodup_putAll hm later).of_map _) hnodup).2 fun e => ?_
  rw [mem_putAll hm hlater]
  simp

/-- Members written over others keep the places of those, and follow them where their names are
new. -/
theorem names_putAll (hlater : later.names.Nodup) :
    (m.putAll later).names = m.names ++ later.names.filter (· ∉ m.names) := by
  induction later generalizing m with
  | nil => simp [putAll, names]
  | cons p later ih =>
      obtain ⟨hp, hlater⟩ : p.1 ∉ names later ∧ (names later).Nodup := List.nodup_cons.1 hlater
      have hput : (m.putAll (p :: later)).names =
          (m.put p.1 p.2).names ++ (names later).filter (· ∉ (m.put p.1 p.2).names) := ih hlater
      have hnames : names (p :: later) = p.1 :: names later := rfl
      by_cases hname : p.1 ∈ m.names
      · rw [hput, names_put_of_mem hname, hnames, List.filter_cons_of_neg (by simpa using hname)]
      · have hnew : (m.put p.1 p.2).names = m.names ++ [p.1] := by
          rw [names_put_of_not_mem hname]
          simp [names]
        have hrest : (names later).filter (· ∉ m.names ++ [p.1]) =
            (names later).filter (· ∉ m.names) := by
          refine List.filter_congr fun name hname => ?_
          have hne : name ≠ p.1 := fun heq => hp (heq ▸ hname)
          simp [hne]
        rw [hput, hnew, hrest, hnames, List.filter_cons_of_pos (by simpa using hname),
          List.append_assoc, List.singleton_append]

/-- Members with the same names in the same order and the same values are equal. -/
theorem ext_get? {n : Members α} (hnames : m.names = n.names) (hm : m.names.Nodup)
    (h : ∀ name, m.get? name = n.get? name) : m = n := by
  have hn : n.names.Nodup := hnames ▸ hm
  refine List.ext_getElem (by simpa [names] using congrArg List.length hnames) fun i hi hi' => ?_
  have hname : (m[i]).1 = (n[i]).1 := by
    have hget : m.names[i]? = n.names[i]? := by rw [hnames]
    simpa [names, hi, hi'] using hget
  have hvalue : some (m[i]).2 = some (n[i]).2 := by
    rw [← (mem_iff_get? hm).1 (List.getElem_mem hi), ← (mem_iff_get? hn).1 (List.getElem_mem hi'),
      h, hname]
  exact Prod.ext hname (Option.some.inj hvalue)

/-- Writing the result over the same members again leaves it as it is. -/
theorem putAll_putAll (hm : m.names.Nodup) (hlater : later.names.Nodup) :
    m.putAll (m.putAll later) = m.putAll later := by
  have hnodup : (m.putAll later).names.Nodup := nodup_putAll hm later
  refine ext_get? ?_ (nodup_putAll hm _) fun name => ?_
  · have hold : m.names.filter (· ∉ m.names) = [] := by simp
    rw [names_putAll hnodup, names_putAll hlater, List.filter_append, hold, List.nil_append,
      List.filter_filter]
    simp
  · rw [get?_putAll hnodup, get?_putAll hlater]
    cases later.get? name <;> cases m.get? name <;> rfl

end Members

end ProviderTypes
