import ProviderTypes.AttributeFormat
import ProviderTypes.Log
import ProviderTypes.Registry.Basic
import ProviderTypes.RootIndex.Category
/-!
# ProviderTypes.Build

Steps that fill a registry. A step may fail; what it did before stays done, in the registry, in
the members found and in the log.

Each operation on the state is defined once here, with what it leaves in the registry.
-/

namespace ProviderTypes

/-- What an export works on. -/
structure Workspace where
  registry : Registry
  categories : RootCategories := {}
  /-- The records left so far, oldest first. -/
  log : List LogRecord := []

/-- Why an export fails. -/
inductive ExportError where
  | unsupported (e : UnsupportedType)
  | registry (e : RegistryError)
  | format (e : FormatError)
  deriving DecidableEq, Repr

def ExportError.message : ExportError → String
  | .unsupported e => e.message
  | .registry e => e.message
  | .format e => e.message

/-- A step that fills the registry of a workspace. -/
abbrev Build := ExceptT ExportError (StateM Workspace)

namespace Build

/-- Leave a record. -/
def note (level : LogLevel) (topic : LogTopic) (message : String) : Build Unit :=
  modify fun w => { w with log := w.log ++ [⟨level, topic, message⟩] }

/-- The result of a computation, or its error. -/
def lift {α ε : Type} (wrap : ε → ExportError) (x : Except ε α) : Build α :=
  match x with
  | .ok a => return a
  | .error e => throw (wrap e)

/-- Register a container under the registry's policy. -/
def insert (key : QualifiedName) (c : Container) : Build Unit := do
  let w ← get
  match w.registry.insert key c with
  | .error e => throw (.registry e)
  | .ok r =>
    if w.registry.overwrites key c then
      note .debug .registry ("Overwriting registry entry " ++ key.fullName)
    modify fun w => { w with registry := r }

/-- Register a container in place of any other. -/
def replace (key : QualifiedName) (c : Container) : Build Unit := do
  let w ← get
  match w.registry.replace key c with
  | .error e => throw (.registry e)
  | .ok r => modify fun w => { w with registry := r }

/-- Record a member of a group. -/
def addMember (category : RootCategory) (member : String) : Build Unit :=
  modify fun w => { w with categories := w.categories.add category member }

/-- Run a step on a fresh registry of this policy, and answer what it filled; the workspace's
    own registry stays. -/
def apart (policy : DuplicatePolicy) (step : Build Unit) : Build Registry := do
  let own := (← get).registry
  modify fun w => { w with registry := .empty policy }
  step
  let filled := (← get).registry
  modify fun w => { w with registry := own }
  return filled

/-- Take every entry of a registry into the workspace's own. -/
def merge (other : Registry) : Build Unit := do
  let w ← get
  let (result, r) := w.registry.merge other
  modify fun w => { w with registry := r }
  lift .registry result

/-- Run a step on a workspace. -/
def runOn {α : Type} (step : Build α) (w : Workspace) : Except ExportError α × Workspace :=
  (ExceptT.run step).run w

end Build

end ProviderTypes
