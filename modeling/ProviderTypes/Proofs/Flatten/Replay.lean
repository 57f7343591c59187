import ProviderTypes.Proofs.Flatten.Script

/-!
# ProviderTypes.Proofs.Flatten.Replay

Flattening a block as a list of events replayed.  The events of a block are known
without a registry: the entries of its declarations, in which every block comes
after the blocks nested in it, up to the first failure (`Flatten.events`).
Whatever registry flattening starts from, it leaves the one that inserting these
entries leaves, stopped by the first that is refused (`flattenBlock_replays_events`).

A run that fails has therefore registered an initial part of the declarations and
nothing else.  The outermost block is the last of them, so its key is left alone.
-/

namespace ProviderTypes

namespace Script

/-- A script up to its first failure, which is kept. -/
def untilFailure : Script → Script
  | [] => []
  | .error e :: _ => [.error e]
  | .ok entry :: rest => .ok entry :: untilFailure rest

/-- Nothing after the first failure is played. -/
theorem play_untilFailure (r : Registry) (s : Script) : r.play (untilFailure s) = r.play s := by
  induction s generalizing r with
  | nil => rfl
  | cons x s ih =>
      cases x with
      | error e => rfl
      | ok entry =>
          rw [untilFailure, Registry.play, Registry.play]
          cases r.insert entry.1 entry.2 with
          | error e => rfl
          | ok m => exact ih m

end Script

namespace Registry

variable {r r' : Registry} {es : List Entry} {key : QualifiedName} {c : Container}

/-- An insertion leaves what other keys have. -/
theorem get?_insert_of_ne (h : r.insert key c = .ok r') {other : QualifiedName}
    (hne : other ≠ key) : r'.get? other = r.get? other := by
  obtain ⟨-, ⟨rfl, -⟩ | ⟨rfl, -⟩⟩ := insert_cases h
  · rfl
  · rw [get?_store, if_neg hne]

/-- Inserting entries of other keys leaves a key alone. -/
theorem get?_insertAll_of_ne (h : es.foldlM (fun r e => r.insert e.1 e.2) r = .ok r')
    (hne : ∀ e ∈ es, e.1 ≠ key) : r'.get? key = r.get? key :=
  foldlM_preserves (P := fun m => m.get? key = r.get? key)
    (fun e he _ _ hm hget => (get?_insert_of_ne hm (hne e he).symm).trans hget) h rfl

end Registry

namespace Flatten

variable {rules : EscapeRules} {s t : Script} {ds ds' : List Declaration}

/-- The script has the entries of the declarations, in order and with failures between them. -/
inductive Interleaves (rules : EscapeRules) : Script → List Declaration → Prop
  | nil : Interleaves rules [] []
  | fault {s : Script} {ds : List Declaration} (e : ExportError) :
      Interleaves rules s ds → Interleaves rules (.error e :: s) ds
  | entry {s : Script} {ds : List Declaration} (d : Declaration) :
      Interleaves rules s ds → Interleaves rules (d.entry rules :: s) (d :: ds)

/-- Scripts in a row register in a row what each registers. -/
theorem Interleaves.append (hs : Interleaves rules s ds) (ht : Interleaves rules t ds') :
    Interleaves rules (s ++ t) (ds ++ ds') := by
  induction hs with
  | nil => exact ht
  | fault e _ ih => exact .fault e ih
  | entry d _ ih => exact .entry d ih

/-- The faults of attributes stand between no entries. -/
theorem interleaves_attributeFaults (rules : EscapeRules) (as : Members Attribute) :
    Interleaves rules (attributeFaults rules as) [] := by
  unfold attributeFaults
  split
  · exact .nil
  · exact .fault _ .nil

mutual
/-- The script of the blocks nested in a block has the entries of their declarations. -/
theorem interleaves_script : (block : Block) → (scope : Option String) → (name : String) →
    Interleaves rules (script rules scope name block) (nested scope name block)
  | .mk as blockTypes, scope, name => by
      rw [script, nested]
      exact (interleaves_attributeFaults rules as).append
        (interleaves_scriptAll blockTypes scope name)
theorem interleaves_scriptAll : (blockTypes : List (String × Nesting × Block)) →
    (scope : Option String) → (name : String) →
    Interleaves rules (scriptAll rules scope name blockTypes) (nestedAll scope name blockTypes)
  | [], scope, name => by
      rw [scriptAll, nestedAll]
      exact .nil
  | (child, nesting, block) :: rest, scope, name => by
      rw [scriptAll, nestedAll]
      exact (interleaves_script block _ child).append
        (.entry _ (interleaves_scriptAll rest scope name))
end

/-- Playing registers an initial part of the declarations, all of them where it succeeds. -/
theorem Interleaves.exists_completed {r r' : Registry} {result : Except ExportError Unit}
    (hs : Interleaves rules s ds) (h : r.play s = (result, r')) :
    ∃ completed remaining, ds = completed ++ remaining ∧
      r.play (completed.map (Declaration.entry rules)) = (.ok (), r') ∧
      (result = .ok () → remaining = []) := by
  induction hs generalizing r with
  | nil =>
      cases h
      exact ⟨[], [], rfl, rfl, fun _ => rfl⟩
  | @fault s ds e _ _ =>
      cases h
      exact ⟨[], ds, rfl, rfl, fun h => by contradiction⟩
  | @entry s ds d _ ih =>
      cases hentry : d.entry rules with
      | error e =>
          rw [hentry] at h
          cases h
          exact ⟨[], d :: ds, rfl, rfl, fun h => by contradiction⟩
      | ok entry =>
          rw [hentry, Registry.play] at h
          cases hinsert : r.insert entry.1 entry.2 with
          | error e =>
              rw [hinsert] at h
              cases h
              exact ⟨[], d :: ds, rfl, rfl, fun h => by contradiction⟩
          | ok m =>
              rw [hinsert] at h
              obtain ⟨completed, remaining, hds, hplay, hall⟩ := ih h
              refine ⟨d :: completed, remaining, ?_, ?_, hall⟩
              · rw [hds, List.cons_append]
              · rw [List.map_cons, hentry, Registry.play, hinsert]
                exact hplay

mutual
/-- No nested block type has the key of an outermost block. -/
theorem key_ne_details_of_mem_nested : (block : Block) → (scope : Option String) →
    (name root : String) → ∀ d ∈ nested scope name block, d.key ≠ .details root
  | .mk as blockTypes, scope, name, root => by
      rw [nested]
      exact key_ne_details_of_mem_nestedAll blockTypes scope name root
theorem key_ne_details_of_mem_nestedAll : (blockTypes : List (String × Nesting × Block)) →
    (scope : Option String) → (name root : String) →
    ∀ d ∈ nestedAll scope name blockTypes, d.key ≠ .details root
  | [], scope, name, root => by simp [nestedAll]
  | (child, nesting, block) :: rest, scope, name, root => by
      intro d hd
      rw [nestedAll, List.mem_append, List.mem_cons] at hd
      rcases hd with hd | rfl | hd
      · exact key_ne_details_of_mem_nested block _ child root d hd
      · simp [QualifiedName.nested, QualifiedName.details]
      · exact key_ne_details_of_mem_nestedAll rest scope name root d hd
end

/-- What flattening the outermost block `name` registers on its own account, in order: each nested
block after the blocks nested in it and before the siblings that follow it, the outermost block
last.  The first failure on this way ends the list; the attributes of a block come before the blocks
nested in it, and its field names are compared after all of these. -/
def events (rules : EscapeRules) (scope : Option String) (name : String) (block : Block) : Script :=
  Script.untilFailure (scriptOf rules scope name block)

/-- Events that are all inserted translate the outermost block. -/
theorem exists_translate_of_play {scope : Option String} {name : String} {block : Block}
    {r r' : Registry} (h : r.play (scriptOf rules scope name block) = (.ok (), r')) :
    ∃ record, translate rules scope name block.inNameOrder = .ok record := by
  have hmem : (⟨.details name, scope, name, block.inNameOrder⟩ : Declaration) ∈
      declarations scope name block := List.mem_append_right _ (List.mem_singleton_self _)
  exact ((registers_scriptOf rules scope name block).play_eq_ok.1 h).1 _ hmem

/-- Playing the events of a block registers an initial part of its declarations, and all of them
exactly where it succeeds. -/
theorem exists_completed_of_play {scope : Option String} {name : String} {block : Block}
    {r r' : Registry} {result : Except ExportError Unit}
    (h : r.play (scriptOf rules scope name block) = (result, r')) :
    ∃ completed remaining, declarations scope name block = completed ++ remaining ∧
      r.play (completed.map (Declaration.entry rules)) = (.ok (), r') ∧
      (result = .ok () ↔ remaining = []) := by
  have hinterleaves : Interleaves rules (scriptOf rules scope name block)
      (declarations scope name block) :=
    (interleaves_script block.inNameOrder scope name).append (.entry _ .nil)
  obtain ⟨completed, remaining, hds, hplay, hall⟩ := hinterleaves.exists_completed h
  refine ⟨completed, remaining, hds, hplay, hall, fun hnil => ?_⟩
  -- Where all declarations have entries no failure is in the script.
  rw [hnil, List.append_nil] at hds
  obtain ⟨es, hes, -⟩ := Registry.play_eq_ok.1 hplay
  have htranslate : ∀ d ∈ declarations scope name block, ∃ x, d.record rules = .ok x := by
    intro d hd
    rw [hds] at hd
    have hentry : d.entry rules ∈ es.map .ok := hes ▸ List.mem_map_of_mem hd
    obtain ⟨e, -, he⟩ := List.mem_map.1 hentry
    obtain ⟨x, hx, -⟩ := Declaration.entry_eq_ok.1 he.symm
    exact ⟨x, hx⟩
  rw [(registers_scriptOf rules scope name block).eq_map htranslate, hds, hplay] at h
  exact (congrArg Prod.fst h).symm

/-- Playing the entries of declarations leaves all other keys alone. -/
theorem get?_of_play_entries {r r' : Registry} {key : QualifiedName}
    (h : r.play (ds.map (Declaration.entry rules)) = (.ok (), r')) (hne : ∀ d ∈ ds, d.key ≠ key) :
    r'.get? key = r.get? key := by
  obtain ⟨es, hes, hinsert⟩ := Registry.play_eq_ok.1 h
  refine Registry.get?_insertAll_of_ne hinsert fun e he => ?_
  have hentry : .ok e ∈ ds.map (Declaration.entry rules) := hes ▸ List.mem_map_of_mem he
  obtain ⟨d, hd, hde⟩ := List.mem_map.1 hentry
  obtain ⟨x, -, rfl⟩ := Declaration.entry_eq_ok.1 hde
  exact hne d hd

/-- An initial part of the declarations without the last leaves the key of the outermost block
alone. -/
theorem get?_details_of_play {scope : Option String} {name : String} {block : Block}
    {r r' : Registry} {completed remaining : List Declaration}
    (hds : declarations scope name block = completed ++ remaining) (hremaining : remaining ≠ [])
    (h : r.play (completed.map (Declaration.entry rules)) = (.ok (), r')) :
    r'.get? (.details name) = r.get? (.details name) := by
  have hnested : nested scope name block.inNameOrder = completed ++ remaining.dropLast := by
    have hlast := congrArg List.dropLast hds
    rwa [declarations, List.dropLast_concat, List.dropLast_append_of_ne_nil hremaining] at hlast
  refine get?_of_play_entries h fun d hd => ?_
  have hmem : d ∈ nested scope name block.inNameOrder := by
    rw [hnested]
    exact List.mem_append_left _ hd
  exact key_ne_details_of_mem_nested _ scope name name d hmem

/-- What is registered for nested blocks leaves the keys of outermost blocks alone. -/
theorem get?_details_of_play_script {scope : Option String} {name : String} {block : Block}
    {r r' : Registry} (h : r.play (script rules scope name block) = (.ok (), r')) (root : String) :
    r'.get? (.details root) = r.get? (.details root) := by
  obtain ⟨completed, remaining, hds, hplay, -⟩ :=
    (interleaves_script block scope name).exists_completed h
  refine get?_of_play_entries hplay fun d hd => ?_
  have hmem : d ∈ nested scope name block := hds ▸ List.mem_append_left _ hd
  exact key_ne_details_of_mem_nested block scope name root d hmem

/-- Flattening leaves the registry that playing the script leaves, and fails as that fails. -/
theorem play_scriptOf_eq_runOn (rules : EscapeRules) (scope : Option String) (name : String)
    (block : Block) (w : Workspace) :
    w.registry.play (scriptOf rules scope name block) =
      (((flattenBlock rules scope name block).runOn w).1.map fun _ => (),
        ((flattenBlock rules scope name block).runOn w).2.registry) := by
  have hperforms := performs_flattenBlock rules scope name block
  cases hplay : w.registry.play (scriptOf rules scope name block) with
  | mk result r =>
      cases result with
      | error e =>
          obtain ⟨categories, log, hrun⟩ := hperforms.stopped hplay
          rw [hrun]
          rfl
      | ok u =>
          obtain ⟨log, hrun⟩ := hperforms.played hplay
          obtain ⟨record, hrecord⟩ := exists_translate_of_play hplay
          rw [hrun, hrecord]
          rfl

/-- Flattening a block is its events replayed.  Whatever is registered before, it leaves the
registry that inserting the events in order leaves, up to the first that is refused, and it fails as
that fails; what it answers depends on the block alone.  It has then registered an initial part of
the declarations, all of them if it succeeds, and if it fails the key of the outermost block is as
it was. -/
theorem flattenBlock_replays_events (rules : EscapeRules) (scope : Option String) (name : String)
    (block : Block) (w : Workspace) :
    let run := (flattenBlock rules scope name block).runOn w
    w.registry.play (events rules scope name block) = (run.1.map fun _ => (), run.2.registry) ∧
      (∀ record, run.1 = .ok record →
        translate rules scope name block.inNameOrder = .ok record) ∧
      ∃ completed remaining, declarations scope name block = completed ++ remaining ∧
        w.registry.play (completed.map (Declaration.entry rules)) = (.ok (), run.2.registry) ∧
        ((∃ record, run.1 = .ok record) ↔ remaining = []) ∧
        ∀ e, run.1 = .error e →
          run.2.registry.get? (.details name) = w.registry.get? (.details name) := by
  intro run
  have hplay := play_scriptOf_eq_runOn rules scope name block w
  refine ⟨?_, fun record hrecord => ?_, ?_⟩
  · rw [events, Script.play_untilFailure, hplay]
  · exact ((performs_flattenBlock rules scope name block).of_runOn_eq_ok
      (Prod.ext hrecord rfl : run = (.ok record, run.2))).1
  · obtain ⟨completed, remaining, hds, hcompleted, hall⟩ := exists_completed_of_play hplay
    have hiff : (∃ record, run.1 = .ok record) ↔ remaining = [] := by
      rw [← hall]
      change _ ↔ (run.1.map fun _ => ()) = .ok ()
      cases run.1 <;> simp [Except.map]
    refine ⟨completed, remaining, hds, hcompleted, hiff, fun e he => ?_⟩
    refine get?_details_of_play hds (fun hnil => ?_) hcompleted
    obtain ⟨record, hrecord⟩ := hiff.2 hnil
    rw [he] at hrecord
    contradiction

end Flatten

end ProviderTypes
