import ProviderTypes.CommandLine.Basic
import ProviderTypes.Program
import ProviderTypes.Proofs.Except
import ProviderTypes.Proofs.Generation.Output

/-!
# ProviderTypes.Proofs.Generation.Interruption

The failures that a run does not report in its own words.  Each of the three steps
that touch the files has its own: reading the settings (`Settings.Interrupts`),
reading the schema (`Schema.Interrupts`) and writing the text
(`Generation.WriteInterrupts`).  The steps between them, from flattening to rendering,
have none, if the stack has room for the schema.

`generate_unreported_iff` says that these are all, whatever the file system and the
YAML library answer; on the command line the console may refuse what is to be shown
(`CommandLine.Unshown`).  That there are any, although errors are meant to be
reported, is `not_forall_generate_reported`: the schema reader reports a directory in
place of its file, and the settings reader does not.
-/

namespace ProviderTypes

variable {σ : Type} {m : Machine σ} {d : σ} {p : Path} {r : GenerationRequest}
  {cause : Interruption}

/-- The path leads to bytes that decode to the text. -/
def Machine.HoldsText (m : Machine σ) (d : σ) (p : Path) (text : String) : Prop :=
  m.files.pathExists d p = .ok true ∧
    ∃ bytes, m.files.read d p = .ok bytes ∧ fileText bytes = .ok text

/-! ## settings -/

/-- What breaks off the reading of settings at a path. -/
inductive Settings.Interrupts (m : Machine σ) (d : σ) (p : Path) : Interruption → Prop where
  /-- The system does not say whether there is a file. -/
  | exists {f : FileFault} (h : m.files.pathExists d p = .error f) : Interrupts m d p (.file f)
  /-- What is there cannot be read: it is a directory, may not be read, or fails on the way. -/
  | read {f : FileFault} (hexists : m.files.pathExists d p = .ok true)
      (h : m.files.read d p = .error f) : Interrupts m d p (.file f)
  | notUtf8 {bytes : List UInt8} {fault : Utf8.Fault} (hexists : m.files.pathExists d p = .ok true)
      (h : m.files.read d p = .ok bytes) (hdecode : fileText bytes = .error fault) :
      Interrupts m d p .notUtf8
  /-- The library fails with an error that is none of its own. -/
  | library {text : String} {cause : Interruption} (h : m.HoldsText d p text)
      (hread : m.yaml.read Settings.depth text = .error (.interrupted cause)) :
      Interrupts m d p cause
  /-- A section has a name that is no text. -/
  | unlistable {text : String} {entries : Settings.Section} {e : Yaml.Atom × Yaml.Value}
      (h : m.HoldsText d p text) (hread : m.yaml.read Settings.depth text = .ok (.map entries))
      (he : e ∈ entries) (hkey : e.1.text? = none) : Interrupts m d p .unlistable

namespace Settings

/-- Settings that are refused break nothing off. -/
theorem mapError_refused_ne {α : Type} (x : Except SettingsError α) (cause : Interruption) :
    x.mapError LoadError.refused ≠ .error (.interrupted cause) := by
  intro h
  cases x with
  | error e => cases h
  | ok a => cases h

/-- Sections are broken off by a name that is no text, since the unknown ones are to be listed. -/
theorem checkSections_eq_interrupted_iff {entries : Section} :
    checkSections entries = .error (.interrupted cause) ↔
      cause = .unlistable ∧ ∃ e ∈ entries, e.1.text? = none := by
  have hlisted : (entries.any fun e => e.1.text?.isNone) = true ↔
      ∃ e ∈ entries, e.1.text? = none := by
    simp only [List.any_eq_true, Option.isNone_iff_eq_none]
  rw [← hlisted]
  unfold checkSections
  split
  · simp [*, eq_comm]
  · dsimp only
    split <;> simp [*]

/-- Of all values, only a mapping with a key that is no text breaks the reading off. -/
theorem ofValue_eq_interrupted_iff {v : Yaml.Value} :
    ofValue v = .error (.interrupted cause) ↔
      cause = .unlistable ∧ ∃ entries, v = .map entries ∧ ∃ e ∈ entries, e.1.text? = none := by
  cases v with
  | map entries =>
      simp [ofValue, bind_eq_error_iff, checkSections_eq_interrupted_iff, mapError_refused_ne,
        pure, Except.pure]
  | atom a =>
      cases a with
      | null =>
          simp [ofValue, bind_eq_error_iff, checkSections_eq_interrupted_iff, mapError_refused_ne,
            pure, Except.pure]
      | _ => simp [ofValue, bind, Except.bind]
  | list items => simp [ofValue, bind, Except.bind]
  | set => simp [ofValue, bind, Except.bind]

/-- Settings in a text are broken off by the library or by a name that is no text. -/
theorem ofText_eq_interrupted_iff {lib : Yaml.Library} {text : String} :
    ofText lib text = .error (.interrupted cause) ↔
      lib.read depth text = .error (.interrupted cause) ∨
        cause = .unlistable ∧ ∃ entries, lib.read depth text = .ok (.map entries) ∧
          ∃ e ∈ entries, e.1.text? = none := by
  unfold ofText
  cases lib.read depth text with
  | error stop => cases stop <;> simp
  | ok v => simp [ofValue_eq_interrupted_iff]

/-- Exactly these causes break off the reading of settings. -/
theorem load_eq_interrupted_iff :
    load m d p = .error (.interrupted cause) ↔ Interrupts m d p cause := by
  unfold load
  constructor
  · intro h
    split at h
    · cases h
      exact .exists ‹_›
    · cases h
    · rename_i hexists
      split at h
      · cases h
        exact .read hexists ‹_›
      · rename_i bytes hbytes
        split at h
        · cases h
          exact .notUtf8 hexists hbytes ‹_›
        · rename_i text htext
          have hholds : m.HoldsText d p text := ⟨hexists, bytes, hbytes, htext⟩
          cases bind_eq_error_iff.1 h with
          | inl hread =>
              cases ofText_eq_interrupted_iff.1 hread with
              | inl hlibrary => exact .library hholds hlibrary
              | inr hkey =>
                  obtain ⟨rfl, entries, hentries, e, he, hkey⟩ := hkey
                  exact .unlistable hholds hentries he hkey
          | inr hlater =>
              obtain ⟨s, -, h⟩ := hlater
              cases h
  · intro h
    cases h with
    | «exists» h => rw [h]
    | read hexists h => simp only [hexists, h]
    | notUtf8 hexists h hdecode => simp only [hexists, h, hdecode]
    | library h hread =>
        obtain ⟨hexists, bytes, hbytes, htext⟩ := h
        simp only [hexists, hbytes, htext]
        exact bind_eq_error_iff.2 (Or.inl (ofText_eq_interrupted_iff.2 (Or.inl hread)))
    | unlistable h hread he hkey =>
        obtain ⟨hexists, bytes, hbytes, htext⟩ := h
        simp only [hexists, hbytes, htext]
        have hlisted := ofText_eq_interrupted_iff.2 (Or.inr ⟨rfl, _, hread, _, he, hkey⟩)
        exact bind_eq_error_iff.2 (Or.inl hlisted)

end Settings

/-! ## schema -/

/-- What breaks off the reading of a schema at a path, to be rendered under settings. -/
inductive Schema.Interrupts (m : Machine σ) (c : Configuration) (d : σ) (p : Path) :
    Interruption → Prop where
  /-- The system does not say whether there is a file. -/
  | exists {f : FileFault} (h : m.files.pathExists d p = .error f) : Interrupts m c d p (.file f)
  /-- The path cannot be handed over, although it leads to something. -/
  | read {f : FileFault} (hexists : m.files.pathExists d p = .ok true)
      (h : m.files.read d p = .error f) (hf : ∀ e, f ≠ .system e) : Interrupts m c d p (.file f)
  /-- The stack has no room for the schema. -/
  | exhausted {text : String} (h : m.HoldsText d p text) (hfits : m.fits c text = false) :
      Interrupts m c d p .exhausted
  /-- The text writes a whole number with too many digits. -/
  | numeral {text : String} (h : m.HoldsText d p text) (hfits : m.fits c text = true)
      (hread : Json.read text = .error .numeralTooLong) : Interrupts m c d p .notNumber

namespace Schema

variable {c : Configuration}

/-- A schema in a text is broken off by a number with too many digits. -/
theorem parse_eq_interrupted_iff {text : String} :
    parse text = .error (.interrupted cause) ↔
      cause = .notNumber ∧ Json.read text = .error .numeralTooLong := by
  unfold parse ofText
  cases Json.read text with
  | error e => cases e <;> simp [eq_comm]
  | ok v =>
      simp only [reduceCtorEq, and_false, iff_false]
      intro h
      cases hschema : ofJson v with
      | error violation =>
          rw [hschema] at h
          cases h
      | ok schema =>
          rw [hschema] at h
          cases h

/-- Exactly these causes break off the reading of a schema. -/
theorem load_eq_interrupted_iff :
    load m c d p = .error (.interrupted cause) ↔ Interrupts m c d p cause := by
  unfold load
  constructor
  · intro h
    split at h
    · cases h
      exact .exists ‹_›
    · cases h
    · rename_i hexists
      split at h
      · cases h
      · rename_i f hf hread
        cases h
        exact .read hexists hread hf
      · rename_i bytes hbytes
        split at h
        · cases h
        · rename_i text htext
          have hholds : m.HoldsText d p text := ⟨hexists, bytes, hbytes, htext⟩
          split at h
          · obtain ⟨rfl, hread⟩ := parse_eq_interrupted_iff.1 h
            exact .numeral hholds ‹_› hread
          · cases h
            exact .exhausted hholds (Bool.eq_false_iff.2 ‹_›)
  · intro h
    cases h with
    | «exists» h => rw [h]
    | @read f hexists h hf =>
        cases f with
        | system e => exact absurd rfl (hf e)
        | _ => simp only [hexists, h]
    | exhausted h hfits =>
        obtain ⟨hexists, bytes, hbytes, htext⟩ := h
        simp only [hexists, hbytes, htext, hfits, Bool.false_eq_true, if_false]
    | numeral h hfits hread =>
        obtain ⟨hexists, bytes, hbytes, htext⟩ := h
        simp only [hexists, hbytes, htext, hfits, if_true]
        exact parse_eq_interrupted_iff.2 ⟨rfl, hread⟩

end Schema

/-! ## runs -/

namespace Generation

/-- What breaks off the writing of a text to a path. -/
inductive WriteInterrupts (m : Machine σ) (d : σ) (source : String) (p : Path) :
    Interruption → Prop where
  /-- A directory on the way cannot be made, and it is not the system that says so. -/
  | directories {d' : σ} {f : FileFault}
      (h : m.files.ensureDirectories d p.parent = (.error f, d')) (hf : ∀ e, f ≠ .system e) :
      WriteInterrupts m d source p (.file f)
  /-- The file cannot be opened, or the text has no bytes. -/
  | text {d₁ d₂ : σ} {f : FileFault} (hmade : m.files.ensureDirectories d p.parent = (.ok (), d₁))
      (h : m.files.writeText d₁ p source = (.error f, d₂)) (hf : ∀ e, f ≠ .system e) :
      WriteInterrupts m d source p (.file f)
  /-- The text is written, and the absolute path of the file is not found. -/
  | resolving {d₁ d₂ : σ} {f : FileFault}
      (hmade : m.files.ensureDirectories d p.parent = (.ok (), d₁))
      (hwritten : m.files.writeText d₁ p source = (.ok (), d₂))
      (h : m.files.resolve d₂ p = .error f) : WriteInterrupts m d source p (.file f)

/-- What breaks off a run: its settings, its schema, or the writing of its text. -/
inductive Interrupts (m : Machine σ) (d : σ) (r : GenerationRequest) : Interruption → Prop where
  | settings {path : String} {cause : Interruption} (hpath : asked r.configPath = some path)
      (h : Settings.Interrupts m d (.ofText path) cause) : Interrupts m d r cause
  | schema {c : Configuration} {cause : Interruption} (hsettings : settings m d r = .ok c)
      (h : Schema.Interrupts m c d (.ofText r.inputPath) cause) : Interrupts m d r cause
  /-- There is a text to write, which is that of the run without the output. -/
  | output {path : String} {o : GenerationOutcome} {cause : Interruption}
      (hpath : r.outputPath = some path)
      (hprinted : (generate m d { r with outputPath := none }).result = .ok o)
      (h : WriteInterrupts m d o.source (.ofText path) cause) : Interrupts m d r cause

/-- What a request asks for itself does not break its settings off; its file may. -/
theorem settings_eq_interrupted_iff :
    settings m d r = .error (.interrupted cause) ↔
      ∃ path, asked r.configPath = some path ∧ Settings.Interrupts m d (.ofText path) cause := by
  have hfile : fileSettings m d r = .error (.interrupted cause) ↔
      ∃ path, asked r.configPath = some path ∧ Settings.Interrupts m d (.ofText path) cause := by
    unfold fileSettings
    cases asked r.configPath with
    | none => simp
    | some path =>
        simp only [Option.some.injEq, exists_eq_left', ← Settings.load_eq_interrupted_iff]
        cases Settings.load m d (.ofText path) with
        | ok c => simp
        | error e => cases e <;> simp
  rw [← hfile]
  unfold settings
  cases fileSettings m d r with
  | error e => simp [bind, Except.bind]
  | ok c =>
      -- A format that is unknown is reported.
      simp only [bind, Except.bind, reduceCtorEq, iff_false]
      cases asked r.outputFormat with
      | none => simp [pure, Except.pure]
      | some name =>
          simp only
          cases formatOf? name <;> simp [pure, Except.pure]

/-- The registry of a schema is broken off by the reading of the schema alone. -/
theorem registry_eq_interrupted_iff {c : Configuration} :
    (registry m d c p).1 = .error (.interrupted cause) ↔ Schema.Interrupts m c d p cause := by
  rw [← Schema.load_eq_interrupted_iff]
  unfold registry
  cases Schema.load m c d p with
  | error e => cases e <;> simp
  | ok schema =>
      simp only
      split <;> simp

/-- An error of the system is reported, and any other is not. -/
theorem writeFailure_eq_interrupted_iff {f : FileFault} :
    writeFailure p f = .interrupted cause ↔ cause = .file f ∧ ∀ e, f ≠ .system e := by
  cases f <;> simp [writeFailure, eq_comm]

/-- Exactly these causes break off the writing of a text. -/
theorem writeOutput_eq_interrupted_iff {source : String} :
    (writeOutput m d source p).1 = .error (.interrupted cause) ↔
      WriteInterrupts m d source p cause := by
  unfold writeOutput
  constructor
  · intro h
    split at h
    · rename_i f d' hmade
      obtain ⟨rfl, hf⟩ := writeFailure_eq_interrupted_iff.1 (Except.error.inj h)
      exact .directories hmade hf
    · rename_i d₁ hmade
      split at h
      · rename_i f d₂ hwrite
        obtain ⟨rfl, hf⟩ := writeFailure_eq_interrupted_iff.1 (Except.error.inj h)
        exact .text hmade hwrite hf
      · rename_i d₂ hwrite
        split at h
        · cases h
          exact .resolving hmade hwrite ‹_›
        · cases h
  · intro h
    cases h with
    | directories h hf =>
        simp only [h]
        exact congrArg _ (writeFailure_eq_interrupted_iff.2 ⟨rfl, hf⟩)
    | text hmade h hf =>
        simp only [hmade, h]
        exact congrArg _ (writeFailure_eq_interrupted_iff.2 ⟨rfl, hf⟩)
    | resolving hmade hwritten h => simp only [hmade, hwritten, h]

/-- A run without a file to write is broken off by its settings or its schema. -/
theorem generate_eq_interrupted_iff_of_none (h : r.outputPath = none) :
    (generate m d r).result = .error (.interrupted cause) ↔
      settings m d r = .error (.interrupted cause) ∨
        ∃ c, settings m d r = .ok c ∧
          (registry m d c (.ofText r.inputPath)).1 = .error (.interrupted cause) := by
  unfold generate
  cases settings m d r with
  | error e => simp
  | ok c =>
      simp only [reduceCtorEq, false_or, Except.ok.injEq, exists_eq_left', h]
      cases registry m d c (.ofText r.inputPath) with
      | mk result log =>
          cases result with
          | error e => simp
          | ok registry =>
              simp only
              cases registry.render m.yaml.write c.generator <;> simp

/-- A run that writes is broken off as without the writing, or by it. -/
theorem writing_eq_interrupted_iff {path : String} {printed : GenerationRun σ} :
    (writing m path printed).result = .error (.interrupted cause) ↔
      printed.result = .error (.interrupted cause) ∨
        ∃ o, printed.result = .ok o ∧
          (writeOutput m printed.files o.source (.ofText path)).1 =
            .error (.interrupted cause) := by
  unfold writing
  cases hresult : printed.result with
  | error e => simp [hresult]
  | ok o =>
      simp only [reduceCtorEq, false_or, Except.ok.injEq, exists_eq_left']
      cases writeOutput m printed.files o.source (.ofText path) with
      | mk result d' => cases result <;> simp

/-- What breaks off a run that only reads, whatever file its request asks for. -/
theorem printed_eq_interrupted_iff :
    (generate m d { r with outputPath := none }).result = .error (.interrupted cause) ↔
      (∃ path, asked r.configPath = some path ∧ Settings.Interrupts m d (.ofText path) cause) ∨
        ∃ c, settings m d r = .ok c ∧ Schema.Interrupts m c d (.ofText r.inputPath) cause := by
  simp only [generate_eq_interrupted_iff_of_none, settings_eq_interrupted_iff,
    registry_eq_interrupted_iff]
  rfl

/-- A run is broken off as one that only reads, or by the writing of the text that this one has. -/
theorem generate_eq_interrupted_iff_printed :
    (generate m d r).result = .error (.interrupted cause) ↔
      (generate m d { r with outputPath := none }).result = .error (.interrupted cause) ∨
        ∃ path o, r.outputPath = some path ∧
          (generate m d { r with outputPath := none }).result = .ok o ∧
          WriteInterrupts m d o.source (.ofText path) cause := by
  cases hout : r.outputPath with
  | none =>
      have hsame : { r with outputPath := none } = r := by rw [← hout]
      simp [hsame]
  | some path =>
      rw [generate_eq_of_some m d hout, writing_eq_interrupted_iff,
        files_generate_of_none m d rfl]
      simp only [writeOutput_eq_interrupted_iff, Option.some.injEq, exists_and_left,
        exists_eq_left']

/-- A run is broken off where its settings or its schema are, or the writing of its text. -/
theorem generate_eq_interrupted_iff :
    (generate m d r).result = .error (.interrupted cause) ↔ Interrupts m d r cause := by
  rw [generate_eq_interrupted_iff_printed, printed_eq_interrupted_iff]
  constructor
  · rintro ((⟨path, hpath, h⟩ | ⟨c, hc, h⟩) | ⟨path, o, hpath, ho, h⟩)
    · exact .settings hpath h
    · exact .schema hc h
    · exact .output hpath ho h
  · intro h
    cases h with
    | settings hpath h => exact Or.inl (Or.inl ⟨_, hpath, h⟩)
    | schema hc h => exact Or.inl (Or.inr ⟨_, hc, h⟩)
    | output hpath ho h => exact Or.inr ⟨_, _, hpath, ho, h⟩

end Generation

/-! ## the command line -/

namespace CommandLine

/-- The console does not take what a run is to show: its text, the path of its file, or the report
of its error. -/
inductive Unshown (h : Host σ) (d : σ) (r : GenerationRequest) : Interruption → Prop where
  | result {o : GenerationOutcome} {cause : Interruption}
      (ho : (generate h.toMachine d r).result = .ok o)
      (hout : h.console.out (shownText o) = .error cause) : Unshown h d r cause
  | report {e : GenerationError} {cause : Interruption}
      (he : (generate h.toMachine d r).result = .error (.reported e))
      (herr : h.console.err ("Error: " ++ e.message ++ "\n") = .error cause) : Unshown h d r cause

theorem succeed_eq_error_iff {c : Console} {log text : String} :
    c.succeed log text = .error cause ↔ c.out text = .error cause := by
  simp [Console.succeed, bind_eq_error_iff, pure, Except.pure]

theorem fail_eq_error_iff {c : Console} {log message : String} :
    c.fail log message = .error cause ↔ c.err ("Error: " ++ message ++ "\n") = .error cause := by
  simp [Console.fail, bind_eq_error_iff, pure, Except.pure]

/-- Showing a result is broken off with the run, or by the console. -/
theorem showResult_eq_error_iff {c : Console} {log : String}
    {result : Except GenerationFailure GenerationOutcome} :
    showResult c log result = .error cause ↔
      result = .error (.interrupted cause) ∨
        (∃ o, result = .ok o ∧ c.out (shownText o) = .error cause) ∨
        ∃ e, result = .error (.reported e) ∧
          c.err ("Error: " ++ e.message ++ "\n") = .error cause := by
  cases result with
  | ok o => simp [showResult, succeed_eq_error_iff]
  | error e => cases e <;> simp [showResult, fail_eq_error_iff]

/-- The console refuses the result of a run or the report of its error. -/
theorem unshown_iff {h : Host σ} :
    Unshown h d r cause ↔
      (∃ o, (generate h.toMachine d r).result = .ok o ∧
        h.console.out (shownText o) = .error cause) ∨
      ∃ e, (generate h.toMachine d r).result = .error (.reported e) ∧
        h.console.err ("Error: " ++ e.message ++ "\n") = .error cause := by
  constructor
  · intro hshown
    cases hshown with
    | result ho hout => exact Or.inl ⟨_, ho, hout⟩
    | report he herr => exact Or.inr ⟨_, he, herr⟩
  · rintro (⟨o, ho, hout⟩ | ⟨e, he, herr⟩)
    · exact .result ho hout
    · exact .report he herr

end CommandLine

/-- Exactly the failures of `Generation.Interrupts` go unreported by a run, and on the command line
those and the failures of the console; every other run has a result or a report, and an exit
status. -/
theorem generate_unreported_iff (h : CommandLine.Host σ) (d : σ) (r : GenerationRequest)
    (verbose : Bool) (cause : Interruption) :
    ((generate h.toMachine d r).result = .error (.interrupted cause) ↔
        Generation.Interrupts h.toMachine d r cause) ∧
      ((CommandLine.runGenerate h d r verbose).1 = .error cause ↔
        Generation.Interrupts h.toMachine d r cause ∨ CommandLine.Unshown h d r cause) := by
  refine ⟨Generation.generate_eq_interrupted_iff, ?_⟩
  rw [← Generation.generate_eq_interrupted_iff, CommandLine.unshown_iff, CommandLine.runGenerate]
  exact CommandLine.showResult_eq_error_iff

/-- A directory in place of the settings is not reported. -/
theorem not_forall_generate_reported :
    ¬ ∀ (d : Disk) (r : GenerationRequest),
      (∃ o, (generate Program.host.toMachine d r).result = .ok o) ∨
        ∃ e, (generate Program.host.toMachine d r).result = .error (.reported e) := by
  let d : Disk := ⟨"/work", .ofList [(["conf"], .directory)]⟩
  let r : GenerationRequest := { inputPath := "s.json", configPath := some "conf" }
  have hexists : Disk.fileSystem.pathExists d (.ofText "conf") = .ok true := by rfl
  have hread : d.readFile (.ofText "conf") =
      .error (Disk.fault Disk.isDirectory (.ofText "conf")) := by rfl
  have hresult : (generate Program.host.toMachine d r).result =
      .error (.interrupted (.file (Disk.fault Disk.isDirectory (.ofText "conf")))) :=
    Generation.generate_eq_interrupted_iff.2 (.settings rfl (.read hexists hread))
  intro h
  obtain ⟨o, ho⟩ | ⟨e, he⟩ := h d r
  · rw [hresult] at ho
    cases ho
  · rw [hresult] at he
    cases he

end ProviderTypes
