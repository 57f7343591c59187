import ProviderTypes.Proofs.Build.Script
import ProviderTypes.Proofs.Flatten.Declaration

/-!
# ProviderTypes.Proofs.Flatten.Script

The script of a block.  Flattening a block meets the faults of its attributes
first, then does the whole script of each nested block followed by the entry of
that block, and finds its own field names distinct or not only at the end.  This
order is `Flatten.script`; the step is that script played
(`performs_flattenBlock`).

Where the script meets no failure, it is the list of the entries of the block's
declarations (`Registers`), so all about the order of failures can be forgotten
then.
-/

namespace ProviderTypes

namespace Flatten

/-- The fault that the attributes of a block have, if any. -/
def attributeFaults (rules : EscapeRules) (as : Members Attribute) : Script :=
  match attributeFields rules as with
  | .ok _ => []
  | .error e => [.error (.unsupported e)]

mutual
/-- What is registered for the blocks nested in the block `name`, before its own record. -/
def script (rules : EscapeRules) (scope : Option String) (name : String) : Block → Script
  | .mk attributes blockTypes =>
    attributeFaults rules attributes ++ scriptAll rules scope name blockTypes
/-- What is registered for these block types of the block `name`. -/
def scriptAll (rules : EscapeRules) (scope : Option String) (name : String) :
    List (String × Nesting × Block) → Script
  | [] => []
  | (child, _, block) :: rest =>
    script rules (some (childScope scope name)) child block ++
      (Declaration.entry rules
        ⟨.nested scope name child, some (childScope scope name), child, block⟩) ::
        scriptAll rules scope name rest
end

/-- What is registered for the outermost block `name`. -/
def scriptOf (rules : EscapeRules) (scope : Option String) (name : String) (block : Block) :
    Script :=
  script rules scope name block.inNameOrder ++
    [Declaration.entry rules ⟨.details name, scope, name, block.inNameOrder⟩]

/-! ## steps and their scripts -/

section Performs
open Build

variable {rules : EscapeRules}

/-- The element types that are approximated are noted, and nothing is registered. -/
theorem performs_attributes (rules : EscapeRules) (as : Members Attribute) :
    Performs (Flatten.attributes rules as) []
      ((attributeFields rules as).mapError ExportError.unsupported) [] := by
  have hnotes : Performs ((approximations as).forM fun element =>
      note .info .attributes ("Approximating element type " ++ element.shown ++ " as string"))
      [] (.ok ()) [] :=
    Performs.forM_nil fun _ => performs_note _ _ _
  exact hnotes.bind (performs_lift ExportError.unsupported (attributeFields rules as))

mutual
/-- Translating a block performs the script of the blocks nested in it. -/
theorem performs_record : (block : Block) → (scope : Option String) → (name : String) →
    Performs (record rules scope name block) (script rules scope name block)
      (translate rules scope name block) []
  | .mk as blockTypes, scope, name => by
      rw [record, script, attributeFaults]
      have hattributes := performs_attributes rules as
      cases hfs : attributeFields rules as with
      | error e =>
          rw [hfs] at hattributes
          exact hattributes.fail
      | ok fs =>
          rw [hfs] at hattributes
          have htranslate : translate rules scope name (.mk as blockTypes) =
              (Record.ofFields .struct (fs ++ nestedFields rules scope name blockTypes)).mapError
                ExportError.format := by
            unfold translate
            simp only [Block.attributes, hfs]
            rfl
          rw [htranslate]
          have hrest := (performs_children blockTypes scope name).bind
            (g := fun nested => lift .format (Record.ofFields .struct (fs ++ nested)))
            (performs_lift ExportError.format _)
          rw [List.append_nil] at hrest
          exact hattributes.bind hrest
/-- Translating nested block types performs their scripts, each followed by its entry. -/
theorem performs_children : (blockTypes : List (String × Nesting × Block)) →
    (scope : Option String) → (name : String) →
    Performs (children rules scope name blockTypes) (scriptAll rules scope name blockTypes)
      (.ok (nestedFields rules scope name blockTypes)) []
  | [], scope, name => by
      rw [children, scriptAll]
      exact performs_pure []
  | (child, nesting, block) :: rest, scope, name => by
      rw [children, scriptAll]
      have hrest := (performs_children rest scope name).bind
        (g := fun others => pure (nestedField rules scope name child :: others))
        (performs_pure (nestedField rules scope name child :: nestedFields rules scope name rest))
      rw [List.append_nil] at hrest
      exact (performs_record block (some (childScope scope name)) child).enter
        fun r _ => (performs_note _ _ _).bind hrest
end

/-- Flattening a block, whatever follows, performs the script of the block and then that of what
follows. -/
theorem performs_flattenBlock_bind {β : Type} {scope : Option String} {name : String}
    {block : Block} {g : Record → Build β} {t : Script} {v : Except ExportError β}
    {found : List (RootCategory × String)}
    (hg : ∀ r, translate rules scope name block.inNameOrder = .ok r → Performs (g r) t v found) :
    Performs (flattenBlock rules scope name block >>= g)
      (scriptOf rules scope name block ++ t) v found := by
  rw [scriptOf, List.append_assoc]
  unfold flattenBlock
  simp only [bind_assoc, pure_bind]
  exact (performs_record block.inNameOrder scope name).enter
    fun r hr => (performs_note _ _ _).bind (hg r hr)

/-- Flattening a block is its script played, and answers the translation of the block. -/
theorem performs_flattenBlock (rules : EscapeRules) (scope : Option String) (name : String)
    (block : Block) :
    Performs (flattenBlock rules scope name block) (scriptOf rules scope name block)
      (translate rules scope name block.inNameOrder) [] := by
  have h : Performs (flattenBlock rules scope name block >>= pure)
      (scriptOf rules scope name block ++ []) (translate rules scope name block.inNameOrder) [] :=
    performs_flattenBlock_bind fun r hr => by
      rw [hr]
      exact performs_pure r
  rwa [bind_pure, List.append_nil] at h

end Performs

/-! ## scripts without failures -/

variable {rules : EscapeRules}

mutual
/-- The entry of every nested declaration is in the script. -/
theorem entry_mem_script : (block : Block) → (scope : Option String) → (name : String) →
    ∀ d ∈ nested scope name block, d.entry rules ∈ script rules scope name block
  | .mk as blockTypes, scope, name => by
      intro d hd
      rw [nested] at hd
      rw [script]
      exact List.mem_append_right _ (entry_mem_scriptAll blockTypes scope name d hd)
/-- Every nested block has its entry in the script. -/
theorem entry_mem_scriptAll : (blockTypes : List (String × Nesting × Block)) →
    (scope : Option String) → (name : String) →
    ∀ d ∈ nestedAll scope name blockTypes, d.entry rules ∈ scriptAll rules scope name blockTypes
  | [], scope, name => by simp [nestedAll]
  | (child, nesting, block) :: rest, scope, name => by
      intro d hd
      rw [nestedAll, List.mem_append, List.mem_cons] at hd
      rw [scriptAll, List.mem_append, List.mem_cons]
      cases hd with
      | inl hd => exact Or.inl (entry_mem_script block _ child d hd)
      | inr hd =>
          cases hd with
          | inl hd => exact Or.inr (Or.inl (by rw [hd]))
          | inr hd => exact Or.inr (Or.inr (entry_mem_scriptAll rest scope name d hd))
end

mutual
/-- If a block and all blocks nested in it translate, its script is the list of their entries. -/
theorem script_eq_map_entry : (block : Block) → (scope : Option String) → (name : String) →
    (∃ r, translate rules scope name block = .ok r) →
    (∀ d ∈ nested scope name block, ∃ r, d.record rules = .ok r) →
    script rules scope name block = (nested scope name block).map (Declaration.entry rules)
  | .mk as blockTypes, scope, name => by
      intro hexists hall
      obtain ⟨r, hr⟩ := hexists
      obtain ⟨fs, hfs, -⟩ := translate_eq_ok.1 hr
      rw [nested] at hall
      rw [script, nested, attributeFaults]
      simp only [Block.attributes] at hfs
      rw [hfs, List.nil_append]
      exact scriptAll_eq_map_entry blockTypes scope name hall
theorem scriptAll_eq_map_entry : (blockTypes : List (String × Nesting × Block)) →
    (scope : Option String) → (name : String) →
    (∀ d ∈ nestedAll scope name blockTypes, ∃ r, d.record rules = .ok r) →
    scriptAll rules scope name blockTypes =
      (nestedAll scope name blockTypes).map (Declaration.entry rules)
  | [], scope, name => fun _ => rfl
  | (child, nesting, block) :: rest, scope, name => by
      intro hall
      rw [nestedAll, List.forall_mem_append, List.forall_mem_cons] at hall
      obtain ⟨hinner, hchild, hrest⟩ := hall
      rw [scriptAll, nestedAll, List.map_append, List.map_cons,
        script_eq_map_entry block _ child hchild hinner,
        scriptAll_eq_map_entry rest scope name hrest]
end

/-- The script registers the declarations: their entries are in it, with their failures, and it is
the list of them if there are none. -/
structure Registers (rules : EscapeRules) (s : Script) (ds : List Declaration) : Prop where
  mem : ∀ d ∈ ds, d.entry rules ∈ s
  eq_map : (∀ d ∈ ds, ∃ r, d.record rules = .ok r) → s = ds.map (Declaration.entry rules)

/-- The script of a block registers what the block declares. -/
theorem registers_scriptOf (rules : EscapeRules) (scope : Option String) (name : String)
    (block : Block) :
    Registers rules (scriptOf rules scope name block) (declarations scope name block) where
  mem d hd := by
    rw [declarations, List.mem_append, List.mem_singleton] at hd
    rw [scriptOf, List.mem_append, List.mem_singleton]
    cases hd with
    | inl hd => exact Or.inl (entry_mem_script _ _ _ d hd)
    | inr hd => exact Or.inr (by rw [hd])
  eq_map h := by
    rw [declarations, List.forall_mem_append] at h
    obtain ⟨hinner, houter⟩ := h
    have hblock : ∃ r, translate rules scope name block.inNameOrder = .ok r :=
      houter _ List.mem_cons_self
    rw [scriptOf, declarations, List.map_append, List.map_cons, List.map_nil,
      script_eq_map_entry _ scope name hblock hinner]

section Registers
variable {s s' : Script} {ds ds' : List Declaration}

/-- Scripts in a row register what each registers. -/
theorem Registers.append (h : Registers rules s ds) (h' : Registers rules s' ds') :
    Registers rules (s ++ s') (ds ++ ds') where
  mem d hd := by
    rw [List.mem_append] at hd ⊢
    exact hd.imp (h.mem d) (h'.mem d)
  eq_map hall := by
    rw [List.forall_mem_append] at hall
    rw [List.map_append, ← h.eq_map hall.1, ← h'.eq_map hall.2]

theorem Registers.flatMap {ι : Type} {l : List ι} {script : ι → Script}
    {declared : ι → List Declaration} (h : ∀ i, Registers rules (script i) (declared i)) :
    Registers rules (l.flatMap script) (l.flatMap declared) := by
  induction l with
  | nil => exact ⟨fun d hd => by simp at hd, fun _ => rfl⟩
  | cons i l ih => exact (h i).append ih

/-- The entries of the declarations that translate. -/
def entriesOf (rules : EscapeRules) (ds : List Declaration) : List Registry.Entry :=
  ds.filterMap fun d => (d.entry rules).toOption

/-- The planned entries are the records of the declarations. -/
theorem mem_entriesOf {e : Registry.Entry} :
    e ∈ entriesOf rules ds ↔
      ∃ d ∈ ds, ∃ r, d.record rules = .ok r ∧ e = (d.key, .record r) := by
  simp only [entriesOf, List.mem_filterMap, ← Declaration.entry_eq_ok]
  have htoOption : ∀ x : Except ExportError Registry.Entry, x.toOption = some e ↔ x = .ok e := by
    intro x
    cases x <;> simp [Except.toOption]
  simp only [htoOption]

/-- Where all declarations have records, all their entries are granted. -/
theorem map_entry_of_translate (h : ∀ d ∈ ds, ∃ r, d.record rules = .ok r) :
    ds.map (Declaration.entry rules) = (entriesOf rules ds).map .ok := by
  induction ds with
  | nil => rfl
  | cons d ds ih =>
      rw [List.forall_mem_cons] at h
      obtain ⟨⟨r, hr⟩, h⟩ := h
      have hd : d.entry rules = .ok (d.key, .record r) := Declaration.entry_eq_ok.2 ⟨r, hr, rfl⟩
      rw [List.map_cons, ih h, hd]
      simp [entriesOf, hd, Except.toOption]

/-- A script that registers declarations plays to its end when they all translate and their entries
are all granted. -/
theorem Registers.play_eq_ok (h : Registers rules s ds) {r r' : Registry} :
    r.play s = (.ok (), r') ↔
      (∀ d ∈ ds, ∃ x, d.record rules = .ok x) ∧
        (entriesOf rules ds).foldlM (fun r e => r.insert e.1 e.2) r = .ok r' := by
  rw [Registry.play_eq_ok]
  constructor
  · intro hexists
    obtain ⟨es, hs, hes⟩ := hexists
    have hall : ∀ d ∈ ds, ∃ x, d.record rules = .ok x := by
      intro d hd
      have hmem := h.mem d hd
      rw [hs] at hmem
      obtain ⟨e, -, he⟩ := List.mem_map.1 hmem
      obtain ⟨x, hx, -⟩ := Declaration.entry_eq_ok.1 he.symm
      exact ⟨x, hx⟩
    refine ⟨hall, ?_⟩
    rw [h.eq_map hall, map_entry_of_translate hall,
      List.map_inj_right fun _ _ => Except.ok.inj] at hs
    rwa [hs]
  · intro hboth
    obtain ⟨hall, hes⟩ := hboth
    exact ⟨entriesOf rules ds, by rw [h.eq_map hall, map_entry_of_translate hall], hes⟩

end Registers

end Flatten

end ProviderTypes
