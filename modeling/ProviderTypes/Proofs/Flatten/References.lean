import ProviderTypes.Proofs.Flatten.Script
import ProviderTypes.Proofs.Registry.References

/-!
# ProviderTypes.Proofs.Flatten.References

References between blocks.  The record of a block refers to its nested block types
and to nothing else (`refs_of_translate`), under the very full names under which
these are registered before it.  Flattening a block therefore keeps a closed
registry closed, whether it succeeds or fails midway (`keeps_scriptOf`).
-/

namespace ProviderTypes

/-! ## references of a record -/

/-- Scalars refer to nothing. -/
theorem refs_of_scalarFormat? {tag : String} {f : Format} (h : scalarFormat? tag = some f) :
    f.refs = [] := by
  unfold scalarFormat? at h
  split at h
  · cases h
    rfl
  · split at h
    · cases h
      rfl
    · split at h
      · cases h
        rfl
      · contradiction

/-- The elements of a list refer to nothing. -/
theorem refs_elementFormat (rest : List Json) : (elementFormat rest).refs = [] := by
  unfold elementFormat
  split
  · next tag _ =>
      cases hf : scalarFormat? tag with
      | none => rfl
      | some f => exact refs_of_scalarFormat? hf
  · rfl

/-- The format of an attribute type refers to nothing. -/
theorem AttributeType.refs_of_format {t : AttributeType} {f : Format} (h : t.format = .ok f) :
    f.refs = [] := by
  cases t with
  | primitive tag =>
      rw [format] at h
      cases hf : scalarFormat? tag with
      | some g =>
          simp only [hf, Except.ok.injEq] at h
          rw [← h]
          exact refs_of_scalarFormat? hf
      | none =>
          simp only [hf] at h
          split at h
          · cases h
            rfl
          · split at h
            · cases h
              rfl
            · contradiction
  | tagged tag rest =>
      rw [format] at h
      split at h
      · cases h
        exact refs_elementFormat rest
      · split at h
        · cases h
          simp [Format.refs, refs_elementFormat]
        · contradiction

/-- The field of an attribute refers to nothing. -/
theorem Attribute.refs_of_field {rules : EscapeRules} {name : String} {a : Attribute} {f : Field}
    (h : a.field rules name = .ok f) : f.value.refs = [] := by
  obtain ⟨-, -, g, hg, hvalue⟩ := Attribute.field_cases h
  have hrefs : g.refs = [] := AttributeType.refs_of_format hg
  rw [hvalue]
  split
  · rw [Format.refs, hrefs]
  · exact hrefs

/-- The fields of attributes refer to nothing. -/
theorem refs_of_attributeFields {rules : EscapeRules} {as : Members Attribute} {fs : List Field}
    (h : attributeFields rules as = .ok fs) : fs.flatMap (fun f => f.value.refs) = [] := by
  have hrefs : fs.map (fun f => f.value.refs) = as.map fun _ => [] :=
    map_of_attributeFields (fun _ _ hf => Attribute.refs_of_field hf) h
  rw [List.flatMap_def, hrefs]
  simp

namespace Flatten

variable {rules : EscapeRules}

/-- The full names of the block types nested in the block `name`. -/
def nestedNames (scope : Option String) (name : String) (blockTypes : Members (Nesting × Block)) :
    List String :=
  blockTypes.map fun e => (QualifiedName.nested scope name e.1).fullName

/-- The record of a block refers to its nested block types. -/
theorem refs_of_translate {scope : Option String} {name : String} {block : Block} {r : Record}
    (h : translate rules scope name block = .ok r) :
    r.refs = nestedNames scope name block.blockTypes := by
  obtain ⟨fs, hfs, hr⟩ := translate_eq_ok.1 h
  rw [Record.ofFields_eq_ok] at hr
  have hnested : ∀ blockTypes : Members (Nesting × Block),
      (nestedFields rules scope name blockTypes).flatMap (fun f => f.value.refs) =
        nestedNames scope name blockTypes := by
    intro blockTypes
    induction blockTypes with
    | nil => rfl
    | cons e rest ih =>
        rw [nestedFields, List.map_cons, List.flatMap_cons, ← nestedFields, ih]
        rfl
  rw [Record.refs, hr, List.flatMap_append, refs_of_attributeFields hfs, hnested, List.nil_append]

/-! ## scripts of blocks -/

/-- The faults of attributes register nothing. -/
theorem keeps_attributeFaults (rules : EscapeRules) (as : Members Attribute) :
    (attributeFaults rules as).Keeps [] := by
  unfold attributeFaults
  split
  · exact Script.keeps_nil
  · exact Script.keeps_error _

/-- The record of a block can be registered once its nested block types are defined. -/
theorem keeps_entry {scope : Option String} {name : String} {block : Block} {s : Script}
    (key : QualifiedName) (hs : s.Keeps (nestedNames scope name block.blockTypes)) :
    Script.Keeps (s ++ [Declaration.entry rules ⟨key, scope, name, block⟩]) [key.fullName] := by
  apply hs.enter
  intro e he
  obtain ⟨r, hr, rfl⟩ := Declaration.entry_eq_ok.1 he
  refine ⟨rfl, fun n hn => ?_⟩
  rwa [← refs_of_translate hr]

mutual
/-- The blocks nested in a block are defined at the end of its script. -/
theorem keeps_script : (block : Block) → (scope : Option String) → (name : String) →
    (script rules scope name block).Keeps (nestedNames scope name block.blockTypes)
  | .mk as blockTypes, scope, name => by
      rw [script]
      exact (keeps_attributeFaults rules as).append (keeps_scriptAll blockTypes scope name)
theorem keeps_scriptAll : (blockTypes : List (String × Nesting × Block)) →
    (scope : Option String) → (name : String) →
    (scriptAll rules scope name blockTypes).Keeps (nestedNames scope name blockTypes)
  | [], scope, name => by
      rw [scriptAll]
      exact Script.keeps_nil
  | (child, nesting, block) :: rest, scope, name => by
      rw [scriptAll, List.append_cons]
      exact (keeps_entry (.nested scope name child) (keeps_script block _ child)).append
        (keeps_scriptAll rest scope name)
end

/-- Flattening a block keeps a closed registry closed, wherever it stops. -/
theorem keeps_scriptOf (rules : EscapeRules) (scope : Option String) (name : String)
    (block : Block) :
    (scriptOf rules scope name block).Keeps [(QualifiedName.details name).fullName] :=
  keeps_entry (QualifiedName.details name) (keeps_script block.inNameOrder scope name)

/-- Flattening a block keeps a closed registry closed and loses no key of it, whether it succeeds or
fails midway. -/
theorem closed_runOn_flattenBlock (rules : EscapeRules) (scope : Option String) (name : String)
    (block : Block) {w : Workspace} (hw : w.registry.Closed) :
    ((flattenBlock rules scope name block).runOn w).2.registry.Closed ∧
      ∀ key ∈ w.registry.keys,
        key ∈ ((flattenBlock rules scope name block).runOn w).2.registry.keys := by
  have hperforms := performs_flattenBlock rules scope name block
  cases hplay : w.registry.play (scriptOf rules scope name block) with
  | mk result r =>
      have hr : ((flattenBlock rules scope name block).runOn w).2.registry = r := by
        cases result with
        | ok u =>
            obtain ⟨log, hrun⟩ := hperforms.played hplay
            rw [hrun]
        | error e =>
            obtain ⟨categories, log, hrun⟩ := hperforms.stopped hplay
            rw [hrun]
      rw [hr]
      exact ⟨(keeps_scriptOf rules scope name block).closed hw hplay,
        Registry.mem_keys_of_play hplay⟩

end Flatten

end ProviderTypes
