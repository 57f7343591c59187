import ProviderTypes.Proofs.Except
import ProviderTypes.Proofs.Files.Places

/-!
# ProviderTypes.Proofs.Files.Writing

Disks as a file system whose states are what stands at places (`Disk.places`).  A
path leads to the place that its names spell or nowhere (`place_of_locate`), and where
it leads depends on the directories alone (`locate_mono`), so that each operation on a
path touches one place known beforehand.  A file that was written is read back
(`readFile_of_wrote`).
-/

namespace ProviderTypes

namespace Disk

variable {d d' d'' : Disk} {p q : Path} {l l' : Location} {names : List String} {e : DiskEntry}
  {bytes : List UInt8} {f : FileFault}

/-! ## places -/

/-- A step goes up, or down to a name that is not too long, which has to be a directory if there are
steps behind it. -/
theorem walk_cons_eq_ok {name : String} :
    d.walk l (name :: names) = .ok l' ↔
      name = ".." ∧ d.walk (above l) names = .ok l' ∨
        name ≠ ".." ∧ ¬ 255 < Utf8.size name ∧
          (names ≠ [] → d.entry? (l ++ [name]) = some .directory) ∧
          d.walk (l ++ [name]) names = .ok l' := by
  rw [walk]
  by_cases hup : name = ".."
  · simp [hup]
  · by_cases hlength : 255 < Utf8.size name
    · simp [hup, hlength]
    · cases names with
      | nil => simp [hup, hlength, walk]
      | cons next names =>
          cases hhere : d.entry? (l ++ [name]) with
          | none => simp [hup, hlength, hhere]
          | some entry => cases entry <;> simp [hup, hlength, hhere]

/-- Names lead to the place that they spell, or nowhere. -/
theorem walk_eq_ok (h : d.walk l names = .ok l') :
    l' = names.foldl (fun l name => if name = ".." then above l else l ++ [name]) l := by
  induction names generalizing l with
  | nil =>
      cases h
      rfl
  | cons name rest ih =>
      rw [List.foldl_cons]
      obtain ⟨hup, h⟩ | ⟨hdown, -, -, h⟩ := walk_cons_eq_ok.1 h
      · rw [if_pos hup]
        exact ih h
      · rw [if_neg hdown]
        exact ih h

/-- A path leads somewhere when it can be handed over, is not too long, and its names do. -/
theorem locate_eq_ok :
    d.locate p = .ok l ↔
      hasNull p = false ∧ (Utf8.encode? p.text).isNone = false ∧
        ¬ pathLimit ≤ Utf8.size p.text ∧
          d.walk (if p.root = "" then [] else [p.root]) p.parts = .ok l := by
  unfold locate
  cases hasNull p with
  | true => simp
  | false =>
      cases (Utf8.encode? p.text).isNone with
      | true => simp
      | false =>
          by_cases hlength : pathLimit ≤ Utf8.size p.text
          · simp [hlength]
          · simp [hlength, mapError_eq_ok]

/-- A path leads to the place that it spells, or nowhere. -/
theorem place_of_locate (h : d.locate p = .ok l) : l = place p :=
  walk_eq_ok (locate_eq_ok.1 h).2.2.2

/-- Names lead to the same place on a disk that has all the directories. -/
theorem walk_mono
    (hdirectories : ∀ l, d.entry? l = some .directory → d'.entry? l = some .directory)
    (h : d.walk l names = .ok l') : d'.walk l names = .ok l' := by
  induction names generalizing l with
  | nil => exact h
  | cons name rest ih =>
      refine walk_cons_eq_ok.2 ?_
      obtain ⟨hup, h⟩ | ⟨hdown, hlength, hhere, h⟩ := walk_cons_eq_ok.1 h
      · exact Or.inl ⟨hup, ih h⟩
      · exact Or.inr ⟨hdown, hlength, fun hrest => hdirectories _ (hhere hrest), ih h⟩

/-- A path leads to the same place on a disk that has all the directories. -/
theorem locate_mono
    (hdirectories : ∀ l, d.entry? l = some .directory → d'.entry? l = some .directory)
    (h : d.locate p = .ok l) : d'.locate p = .ok l := by
  obtain ⟨hnull, hbytes, hlength, hwalk⟩ := locate_eq_ok.1 h
  exact locate_eq_ok.2 ⟨hnull, hbytes, hlength, walk_mono hdirectories hwalk⟩

/-- Where a directory always stands, one is found. -/
theorem isGiven_eq_false (h : d.entry? l ≠ some .directory) : isGiven l = false := by
  cases hgiven : isGiven l with
  | false => rfl
  | true =>
      unfold entry? at h
      simp [hgiven] at h

/-- What is put at a place stands there, and the other places are as before. -/
theorem entry?_put (h : d.entry? l ≠ some .directory) (e : DiskEntry) (k : Location) :
    Disk.entry? (d.put l e) k = if k = l then some e else d.entry? k := by
  have hgiven := isGiven_eq_false h
  unfold entry? put
  by_cases hk : k = l
  · subst hk
    rw [if_pos rfl, hgiven]
    exact OrderedMap.get?_insert_self _ _ _
  · rw [if_neg hk]
    split
    · rfl
    · exact OrderedMap.get?_insert_of_ne _ hk _

/-- What is put where no directory is leaves the directories. -/
theorem directories_put (h : d.entry? l ≠ some .directory) (e : DiskEntry) (k : Location)
    (hk : d.entry? k = some .directory) : Disk.entry? (d.put l e) k = some .directory := by
  have hne : k ≠ l := fun hkl => h (hkl ▸ hk)
  rw [entry?_put h, if_neg hne, hk]

/-! ## operations -/

/-- A directory that is not made changes nothing. -/
theorem makeDirectory_eq_error (h : d.makeDirectory p = (.error f, d')) : d' = d := by
  unfold makeDirectory at h
  split at h
  · cases h
    rfl
  · split at h <;> cases h
    rfl

/-- A directory is made where nothing is. -/
theorem makeDirectory_eq_ok (h : d.makeDirectory p = (.ok (), d')) :
    ∃ l, d.locate p = .ok l ∧ d.entry? l = none ∧ d' = d.put l .directory := by
  unfold makeDirectory at h
  split at h
  · cases h
  · split at h
    · cases h
    · cases h
      exact ⟨_, ‹_›, ‹_›, rfl⟩

/-- A file that is not opened changes nothing. -/
theorem openEmpty_eq_error (h : d.openEmpty p = (.error f, d')) : d' = d := by
  unfold openEmpty at h
  split at h
  · cases h
    rfl
  · split at h <;> cases h <;> rfl

/-- A file that is opened is empty. -/
theorem openEmpty_eq_ok (h : d.openEmpty p = (.ok (), d')) :
    ∃ l, d.locate p = .ok l ∧ d.entry? l ≠ some .directory ∧ d' = d.put l (.file []) := by
  unfold openEmpty at h
  split at h
  · cases h
  · split at h
    · cases h
    · cases h
    · cases h
      exact ⟨_, ‹_›, ‹_›, rfl⟩

/-- A file that is open is filled, and nothing else. -/
theorem fill_eq (h : d.openEmpty p = (.ok (), d')) (bytes : List UInt8) :
    ∃ l, d'.locate p = .ok l ∧ d'.entry? l = some (.file []) ∧
      d'.fill p bytes = (.ok (), d'.put l (.file bytes)) := by
  obtain ⟨l, hlocate, hentry, rfl⟩ := openEmpty_eq_ok h
  have hlocate' := locate_mono (directories_put hentry (.file [])) hlocate
  refine ⟨l, hlocate', ?_, by rw [fill, hlocate']⟩
  rw [entry?_put hentry, if_pos rfl]

/-- Where a path leads does not depend on the bytes of a file. -/
theorem locate_put_file (h : d.entry? l = some (.file [])) (q : Path) :
    ((d.put l (.file bytes)).locate q).toOption = (d.locate q).toOption := by
  have hentry : d.entry? l ≠ some .directory := by simp [h]
  have hback : ∀ k, Disk.entry? (d.put l (.file bytes)) k = some .directory →
      d.entry? k = some .directory := by
    intro k hk
    rw [entry?_put hentry] at hk
    split at hk
    · cases hk
    · exact hk
  ext k
  simp only [toOption_eq_some_iff]
  exact ⟨locate_mono hback, locate_mono (directories_put hentry _)⟩

/-- The places of a disk. -/
def places : fileSystem.Places Location where
  entry := entry?
  place? d p := (d.locate p).toOption
  make_fails := makeDirectory_eq_error
  make_adds := by
    intro d d' p h
    obtain ⟨l, hlocate, hnone, rfl⟩ := makeDirectory_eq_ok h
    have hentry : d.entry? l ≠ some .directory := by simp [hnone]
    have hplace := locate_mono (directories_put hentry .directory) hlocate
    refine ⟨l, toOption_eq_some_iff.2 hplace, hnone, ?_, fun k hk => ?_⟩
    · rw [entry?_put hentry, if_pos rfl]
    · rw [entry?_put hentry, if_neg hk]
  make_keeps := by
    intro d d' p q l h hplace
    obtain ⟨l', -, hnone, rfl⟩ := makeDirectory_eq_ok h
    have hentry : d.entry? l' ≠ some .directory := by simp [hnone]
    rw [toOption_eq_some_iff] at hplace ⊢
    exact locate_mono (directories_put hentry _) hplace
  open_fails := openEmpty_eq_error
  open_empties := by
    intro d d' p h
    obtain ⟨l, hlocate, hentry, rfl⟩ := openEmpty_eq_ok h
    have hplace := locate_mono (directories_put hentry (.file [])) hlocate
    simp only [hplace, Except.toOption, Option.some.injEq, ne_eq, entry?_put hentry]
    exact ⟨fun k hk => if_pos hk.symm, fun k hk => if_neg (Ne.symm hk)⟩
  open_keeps := by
    intro d d' p q l h hplace
    obtain ⟨l', -, hentry, rfl⟩ := openEmpty_eq_ok h
    rw [toOption_eq_some_iff] at hplace ⊢
    exact locate_mono (directories_put hentry _) hplace
  fill_changes := by
    intro d d₁ d' p bytes result hopen hfill
    obtain ⟨l, hlocate, hempty, hfilled⟩ := fill_eq hopen bytes
    have hentry : d₁.entry? l ≠ some .directory := by simp [hempty]
    cases hfilled.symm.trans hfill
    refine ⟨locate_put_file hempty, fun k hk => ?_⟩
    rw [hlocate] at hk
    rw [entry?_put hentry, if_neg]
    rintro rfl
    exact hk rfl
  fill_writes := by
    intro d d₁ d' p bytes k hopen hfill hplace
    obtain ⟨l, hlocate, hempty, hfilled⟩ := fill_eq hopen bytes
    have hentry : d₁.entry? l ≠ some .directory := by simp [hempty]
    cases hfilled.symm.trans hfill
    cases hlocate.symm.trans (toOption_eq_some_iff.1 hplace)
    rw [entry?_put hentry, if_pos rfl]

/-- A file that was written is read back. -/
theorem readFile_of_wrote (h : places.Wrote p bytes d d') (hplace : d'.locate p = .ok l) :
    d'.readFile p = .ok bytes := by
  have hentry : d'.entry? l = some (.file bytes) := h.entry l (toOption_eq_some_iff.2 hplace)
  unfold readFile find
  simp only [hplace, hentry, bind, Except.bind, pure, Except.pure]

end Disk

end ProviderTypes
