import ProviderTypes.Rust.Source

/-!
# ProviderTypes.Proofs.Rust.WireName

The name of a field in documents, as the source tells it.  It is the name in the
attribute that renames the field, if there is one, and else the identifier without
the mark of a raw one (`WireName`).

Among the lines of a field the attribute is there exactly when the identifier does
not tell the name in the schema by itself (`renameLine_mem_fieldLines`).  So a
field has the name that the schema gives it, whatever its identifier is
(`keepsName`).
-/

namespace ProviderTypes

/-- The name that the source gives a field beside its identifier, if it does. -/
def Field.rename? (f : Field) : Option String :=
  f.metadata.sourceName.filter (Rust.needsRename f.name)

namespace Rust

/-! ## identifiers -/

/-- The name begins with the mark of a raw identifier. -/
def Marked (name : String) : Prop := "r#".toList <+: name.toList

instance (name : String) : Decidable (Marked name) :=
  inferInstanceAs (Decidable ("r#".toList <+: name.toList))

/-- A name that an identifier can tell: it is not empty and has no mark. -/
def Proper (name : String) : Prop := name ≠ "" ∧ ¬ Marked name

instance (name : String) : Decidable (Proper name) :=
  inferInstanceAs (Decidable (name ≠ "" ∧ ¬ Marked name))

/-- The name that an identifier tells. -/
def unmarked (identifier : String) : String :=
  if Marked identifier then String.ofList (identifier.toList.drop 2) else identifier

/-- A name without the mark stays as it is. -/
theorem unmarked_of_not_marked {name : String} (h : ¬ Marked name) : unmarked name = name :=
  if_neg h

@[simp] theorem unmarked_raw (name : String) : unmarked ("r#" ++ name) = name := by
  have hmarked : Marked ("r#" ++ name) := ⟨name.toList, by rw [String.toList_append]⟩
  rw [unmarked, if_pos hmarked, String.toList_append]
  simp

/-! ## lines of a field -/

variable {s : GeneratorSettings} {known : List String} {pub name source : String} {f : Field}

/-- A line of renaming tells the name. -/
theorem renameLine_inj {a b : String} : renameLine a = renameLine b ↔ a = b := by
  unfold renameLine
  rw [String.append_left_inj, String.append_right_inj]

/-- A field has a line of renaming when it is renamed. -/
theorem fieldRenameLines_eq (f : Field) : fieldRenameLines f = f.rename?.toList.map renameLine := by
  unfold fieldRenameLines Field.rename?
  cases f.metadata.sourceName with
  | none => rfl
  | some source => cases h : needsRename f.name source <;> simp [h, Option.filter]

theorem head?_toList_renameLine (name : String) : (renameLine name).toList.head? = some '#' := by
  unfold renameLine
  simp

theorem getLast?_toList_renameLine (name : String) :
    (renameLine name).toList.getLast? = some ']' := by
  unfold renameLine
  rw [String.toList_append, List.getLast?_append]
  simp

/-- A line of renaming is none of documentation. -/
theorem renameLine_not_mem_docLines : renameLine name ∉ docLines s f := by
  have hcomment : ∀ description, renameLine name ∉ commentLines description := by
    intro description hmem
    obtain ⟨line, -, hline⟩ := List.mem_map.1 hmem
    have hhead := head?_toList_renameLine name
    rw [← hline] at hhead
    cases h : (trimBlankEnd line).isEmpty <;> simp [h] at hhead
  unfold docLines
  cases f.metadata.description with
  | none => simp
  | some description =>
      split
      · exact hcomment description
      · simp

/-- A line of renaming is none about missing values. -/
theorem renameLine_not_mem_skipLines (value : Format) : renameLine name ∉ skipLines value := by
  -- The attributes differ in the first letter after the opening bracket.
  have hne : ∀ line : String, line.toList[8]? ≠ some 'r' → renameLine name ≠ line := by
    intro line hline heq
    rw [← heq] at hline
    unfold renameLine at hline
    simp at hline
  cases value with
  | option _ => exact fun h => hne _ (by decide) (List.mem_singleton.1 h)
  | str => exact fun h => hne _ (by decide) (List.mem_singleton.1 h)
  | _ => exact List.not_mem_nil

/-- A line of renaming does not end in a comma. -/
theorem renameLine_ne_append_comma (name text : String) : renameLine name ≠ text ++ "," := by
  intro heq
  have hlast := getLast?_toList_renameLine name
  rw [heq, String.toList_append, List.getLast?_append] at hlast
  simp at hlast

/-- The attribute that renames a field is among its lines exactly when the field needs it. -/
theorem renameLine_mem_fieldLines :
    renameLine name ∈ fieldLines s known pub f ↔ f.rename? = some name := by
  simp only [fieldLines, List.mem_append, List.mem_singleton, renameLine_not_mem_docLines,
    renameLine_not_mem_skipLines, renameLine_ne_append_comma, false_or, or_false,
    fieldRenameLines_eq]
  simp [renameLine_inj]

/-! ## names in documents -/

/-- The name in documents that these lines give a field with this identifier: that of the
attribute among them, or else what the identifier tells. -/
def WireName (lines : List String) (identifier name : String) : Prop :=
  renameLine name ∈ lines ∨
    (∀ other, renameLine other ∉ lines) ∧ name = unmarked identifier

/-- The source gives the field this one name in documents, whatever the settings and the known
names are. -/
def KeepsName (f : Field) (source : String) : Prop :=
  ∀ (s : GeneratorSettings) (known : List String) (pub name : String),
    WireName (fieldLines s known pub f) f.name name ↔ name = source

/-- A field that comes from a schema has its name there in documents. -/
theorem keepsName (hsource : f.metadata.sourceName = some source) (hproper : Proper source) :
    KeepsName f source := by
  intro s known pub name
  obtain ⟨hne, hraw⟩ := hproper
  have hrename : f.rename? = if needsRename f.name source then some source else none := by
    simp [Field.rename?, hsource, Option.filter]
  simp only [WireName, renameLine_mem_fieldLines, hrename]
  by_cases hneeds : needsRename f.name source = true
  · simp [hneeds, eq_comm]
  · have hname : f.name = source ∨ f.name = "r#" ++ source := by
      simpa [needsRename, hne, Decidable.or_iff_not_imp_left] using hneeds
    have hunmarked : unmarked f.name = source := by
      cases hname with
      | inl hname => rw [hname, unmarked_of_not_marked hraw]
      | inr hname => rw [hname, unmarked_raw]
    simp [hneeds, hunmarked]

end Rust

end ProviderTypes
