import ProviderTypes.Proofs.Rust.Emission
import ProviderTypes.Proofs.Rust.FiniteSize

/-!
# ProviderTypes.Proofs.Rust.Blocks

A source as the preamble and one block of lines for each entry.  The block of an
entry depends on the entry, the settings and which names are known, that is, on
the names from outside and those of the entries before (`definition_congr`,
`definitions_eq_mapIdx`).  A registry that grows at its end therefore keeps its
source and only adds to it (`source_concat`).
-/

namespace ProviderTypes

/-! ## growing at the end -/

/-- A key after all others is inserted at the end. -/
theorem OrderedMap.insertEntry_of_forall_gt {α β : Type} [Ord α] {key : α} {value : β}
    {entries : List (α × β)} (h : ∀ e ∈ entries, compare key e.1 = .gt) :
    insertEntry key value entries = entries ++ [(key, value)] := by
  induction entries with
  | nil => rfl
  | cons e entries ih =>
      rw [List.forall_mem_cons] at h
      rw [insertEntry, h.1]
      simp [ih h.2]

namespace Registry

variable {r r' : Registry} {key : QualifiedName} {c : Container}

/-- An entry whose key comes after all others is stored at the end. -/
theorem items_store_of_precedes (h : ∀ k ∈ r.keys, k.Precedes key) :
    (r.store key c).items = r.items ++ [(key, c)] :=
  OrderedMap.insertEntry_of_forall_gt fun e he =>
    QualifiedName.compare_of_precedes (h e.1 (List.mem_map.2 ⟨e, he, rfl⟩))

/-- A new key after all others comes last among the entries. -/
theorem items_of_added (h : ∀ k ∈ r.keys, k.Precedes key)
    (hadd : r.insert key c = .ok r' ∨ r.replace key c = .ok r') :
    r'.items = r.items ++ [(key, c)] := by
  have hnew : key ∉ r.keys := fun hkey => key.not_precedes_self (h key hkey)
  have hstore : r' = r.store key c := by
    cases hadd with
    | inl hinsert =>
        obtain ⟨-, ⟨-, d, hd, -⟩ | ⟨hstore, -⟩⟩ := insert_cases hinsert
        · exact absurd (mem_keys.2 ⟨d, hd⟩) hnew
        · exact hstore
    | inr hreplace => exact (replace_eq_ok.1 hreplace).2
  rw [hstore, items_store_of_precedes h]

end Registry

namespace Rust

variable {s : GeneratorSettings} {known known' : List String}

/-! ## which names are known -/

mutual
/-- The spelling of a format depends on which names are known, not on their order. -/
theorem typeText_congr (h : ∀ name, name ∈ known ↔ name ∈ known') :
    (f : Format) → typeText (some known) f = typeText (some known') f
  | .unit | .bool | .int _ _ | .float _ | .char | .str | .bytes | .seq _ | .map _ _ => rfl
  | .option inner => by rw [typeText, typeText, typeText_congr h inner]
  | .tuple elements => by rw [typeText, typeText, typeTexts_congr h elements]
  | .array element _ _ => by rw [typeText, typeText, typeText_congr h element]
  | .ref name _ => by
      rw [typeText, typeText, refText, refText]
      simp only [h]
theorem typeTexts_congr (h : ∀ name, name ∈ known ↔ name ∈ known') :
    (fs : List Format) → typeTexts (some known) fs = typeTexts (some known') fs
  | [] => rfl
  | f :: fs => by rw [typeTexts, typeTexts, typeText_congr h f, typeTexts_congr h fs]
end

/-- The lines of a field depend on which names are known. -/
theorem fieldLines_congr (h : ∀ name, name ∈ known ↔ name ∈ known') (pub : String) :
    fieldLines s known pub = fieldLines s known' pub := by
  funext f
  rw [fieldLines, fieldLines, typeText_congr h]

/-- The lines of a variant depend on which names are known. -/
theorem variantLines_congr (h : ∀ name, name ∈ known ↔ name ∈ known') :
    variantLines s known = variantLines s known' := by
  funext v
  rw [variantLines, variantLines, fieldLines_congr h]
  cases v.shape with
  | newtype f => simp only [typeText_congr h]
  | tuple fs => simp only [typeTexts_congr h]
  | unit => rfl
  | record r => rfl

/-- A definition depends on which names are known, and not on the order in which they became so. -/
theorem definition_congr (h : ∀ name, name ∈ known ↔ name ∈ known') (key : QualifiedName)
    (c : Container) : definition s known key c = definition s known' key c := by
  cases c with
  | unit => rfl
  | newtype f => simp only [definition, bodyLines, typeText_congr h]
  | record r => simp only [definition, bodyLines, fieldLines_congr h]
  | union u => simp only [definition, bodyLines, variantLines_congr h]

/-! ## blocks -/

/-- Each definition is written with the names known that come before it. -/
theorem definitions_eq_mapIdx (known : List String) (es : List Registry.Entry) :
    definitions s known es =
      es.mapIdx fun i e => definition s (knownAfter known (es.take i)) e.1 e.2 := by
  induction es generalizing known with
  | nil => rfl
  | cons e es ih =>
      have hknown : ∀ i, knownAfter (e.1.fullName :: known) (es.take i) =
          knownAfter known ((e :: es).take (i + 1)) := by simp [knownAfter]
      rw [definitions, ih, List.mapIdx_cons]
      simp only [hknown]
      rfl

/-- A new entry at the end adds its definition and leaves the others. -/
theorem definitions_concat (known : List String) (es : List Registry.Entry) (e : Registry.Entry) :
    definitions s known (es ++ [e]) =
      definitions s known es ++ [definition s (knownAfter known es) e.1 e.2] := by
  induction es generalizing known with
  | nil => rfl
  | cons d es ih => simp [definitions, ih, knownAfter]

/-- The writer is at the margin before an entry, and then writes the entry's block and a blank
line. -/
theorem writerAfter_concat (s : GeneratorSettings) (es : List Registry.Entry)
    (e : Registry.Entry) :
    (writerAfter s es).level = 0 ∧
      (writerAfter s (es ++ [e])).lines = (writerAfter s es).lines ++
        (definition s (knownAfter s.externalNames es) e.1 e.2 ++ [""]) := by
  have hlines : ∀ es, (writerAfter s es).lines =
      (preamble s :: definitions s s.externalNames es).flatMap (· ++ [""]) := fun es => by
    rw [writerAfter_eq]
  refine ⟨by rw [writerAfter_eq], ?_⟩
  rw [hlines, hlines, definitions_concat]
  simp

/-- An entry at the end of a registry adds one block at the end of its source. -/
theorem source_concat {r r' : Registry} {key : QualifiedName} {c : Container} {text : String}
    (hitems : r'.items = r.items ++ [(key, c)]) (h : source s r = .ok text)
    (hvalid : r'.validateReferences s.externalNames = .ok ()) :
    source s r' = .ok (text ++ "\n" ++
      joinLines (definition s (knownAfter s.externalNames r.items) key c) ++ "\n") := by
  have hblocks : blocks s r' =
      blocks s r ++ [definition s (knownAfter s.externalNames r.items) key c] := by
    rw [blocks, blocks, hitems, definitions_concat, List.cons_append]
  have htext : text = "\n\n".intercalate ((blocks s r).map joinLines) ++ "\n" := by
    rw [source] at h
    split at h
    · contradiction
    · exact (Except.ok.inj h).symm
  have hseparator : "\n\n" = "\n" ++ "\n" := rfl
  have hne : (blocks s r).map joinLines ≠ [] := by simp [blocks]
  rw [source, hvalid, hblocks, List.map_append,
    String.intercalate_append_of_ne_nil hne (by simp), htext]
  simp [hseparator, String.append_assoc]

/-! ## sources -/

/-- The source is what the writer writes line by line: the preamble, and then one block of lines for
each entry, in order, with a blank line between blocks and a line feed at the end; no block ends in
a line feed of its own.  The writer is at the margin before each entry, and the block of the entry
is its definition, which does not depend on the order in which the names from outside and of the
entries before became known.  So a new entry after all others leaves the source as it is and adds to
it. -/
theorem source_is_preamble_and_definitions (s : GeneratorSettings) (r : Registry) :
    source s r = (r.validateReferences s.externalNames).map (fun _ => emit s r) ∧
      emit s r = "\n\n".intercalate ((blocks s r).map joinLines) ++ "\n" ∧
      (blocks s r = preamble s :: r.items.mapIdx fun i e =>
        definition s (knownAfter s.externalNames (r.items.take i)) e.1 e.2) ∧
      (∀ block ∈ blocks s r, EndedBlock block) ∧
      (∀ (es : List Registry.Entry) (e : Registry.Entry), (writerAfter s es).level = 0 ∧
        (writerAfter s (es ++ [e])).lines = (writerAfter s es).lines ++
          (definition s (knownAfter s.externalNames es) e.1 e.2 ++ [""])) ∧
      (∀ (known known' : List String) (key : QualifiedName) (c : Container),
        (∀ name, name ∈ known ↔ name ∈ known') →
          definition s known key c = definition s known' key c) ∧
      ∀ (r' : Registry) (key : QualifiedName) (c : Container) (text : String),
        r.insert key c = .ok r' ∨ r.replace key c = .ok r' → (∀ k ∈ r.keys, k.Precedes key) →
        source s r = .ok text → r'.validateReferences s.externalNames = .ok () →
          source s r' = .ok (text ++ "\n" ++
            joinLines (definition s (knownAfter s.externalNames r.items) key c) ++ "\n") := by
  refine ⟨source_eq_emit s r, emit_eq s r, by rw [blocks, definitions_eq_mapIdx],
    fun block hblock => endedBlock_of_mem_blocks hblock, writerAfter_concat s,
    fun _ _ key c h => definition_congr h key c, ?_⟩
  intro r' key c text hadded hlast h hvalid
  exact source_concat (Registry.items_of_added hlast hadded) h hvalid

/-- A union, one variant of which has a field, and a record without fields. -/
def ledger : Registry :=
  Registry.after
    [.insert ⟨none, "entry"⟩ (.union ⟨[⟨"Booked", .record
        ⟨[{ name := "made", value := .option (.ref "Moment" (by decide)) }], by decide⟩⟩,
        ⟨"Open", .unit⟩], by decide⟩),
      .insert ⟨none, "empty"⟩ (.record .empty)]
    (.empty .error)

/-- The ledger with one more entry, which refers to the others, has its source and one more
block. -/
theorem source_is_preamble_and_definitions_ledger :
    let s : GeneratorSettings := { externalDefinitions := [("clock", ["Moment"])] }
    let key : QualifiedName := ⟨some "books", "page"⟩
    let c : Container := .newtype (.tuple [.ref "entry" (by decide), .ref "empty" (by decide)])
    ∃ r' text, ledger.insert key c = .ok r' ∧ (∀ k ∈ ledger.keys, k.Precedes key) ∧
      source s ledger = .ok text ∧ r'.validateReferences s.externalNames = .ok () ∧
      source s r' = .ok (text ++ "\n" ++
        joinLines (definition s (knownAfter s.externalNames ledger.items) key c) ++ "\n") := by
  intro s key c
  obtain ⟨text, htext⟩ : ∃ text, source s ledger = .ok text :=
    ⟨_, source_eq_ok_iff.2 ⟨by decide +kernel, rfl⟩⟩
  have hlast : ∀ k ∈ ledger.keys, k.Precedes key := by
    have hcompare : ∀ k ∈ ledger.keys, compare k key = .lt := by decide +kernel
    exact fun k hk => QualifiedName.precedes_of_compare (hcompare k hk)
  have howner : ledger.otherOwner? key = none := by decide +kernel
  have hnew : ledger.get? key = none := by decide +kernel
  have hinsert : ledger.insert key c = .ok (ledger.store key c) := by
    rw [Registry.insert, howner, hnew]
  have hvalid : (ledger.store key c).validateReferences s.externalNames = .ok () := by
    decide +kernel
  obtain ⟨-, -, -, -, -, -, hgrown⟩ := source_is_preamble_and_definitions s ledger
  exact ⟨_, text, hinsert, hlast, htext, hvalid,
    hgrown _ key c text (Or.inl hinsert) hlast htext hvalid⟩

end Rust

end ProviderTypes
