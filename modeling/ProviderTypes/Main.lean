import ProviderTypes.Program
/-!
# ProviderTypes.Main

The program. What stands at the paths that the arguments may name is read into a disk, the
command line is run on that disk, and what the run leaves there is written back.
-/

namespace ProviderTypes.Program

/-- The paths that arguments may name: each argument, what follows its first equals sign, and
    the default settings file. -/
def namedPaths (args : List String) : List Path :=
  let texts := args.flatMap fun arg => arg :: (CommandLine.splitValue arg).2.toList
  (Settings.defaultFileName :: texts).map Path.ofText

/-- A path after all those that lead to it. -/
def withLeading (p : Path) : List Path :=
  (List.range (p.parts.length + 1)).map fun n => { p with parts := p.parts.take n }

/-- The error of a file that is not opened. -/
def faultOf : IO.Error → SystemFault
  | .permissionDenied _ number text => ⟨number.toNat, text, none⟩
  | _ => ⟨5, "Input/output error", none⟩

/-- Read what stands at a path. -/
def readPlace (d : Disk) (p : Path) : IO Disk := do
  let path := (← IO.currentDir) / Symbol.shown p.text
  if ← path.isDir then return d.put (Disk.place p) .directory
  if ← path.pathExists then
    try
      let bytes ← IO.FS.readBinFile path
      return d.put (Disk.place p) (.file bytes.toList)
    catch e => return d.put (Disk.place p) (.sealed (faultOf e))
  return d

/-- The part of the file system that arguments may name. -/
def readDisk (args : List String) : IO Disk := do
  let start : Disk := { workingDirectory := Symbol.textOf (← IO.currentDir).toString.toList }
  ((namedPaths args).flatMap withLeading).foldlM readPlace start

/-- Write what a run left on the disk, parents before what they hold. -/
def writeBack (before after : Disk) : IO Unit := do
  for (location, entry) in after.entries.entries do
    if before.entries.get? location ≠ some entry then
      let path := Symbol.shown (after.absolute location)
      match entry with
      | .directory => IO.FS.createDir path
      | .file bytes => IO.FS.writeBinFile path ⟨bytes.toArray⟩
      | .sealed _ => pure ()

end ProviderTypes.Program

open ProviderTypes in
def main (args : List String) : IO UInt32 := do
  let args := args.map fun arg => Symbol.textOf arg.toList
  let before ← Program.readDisk args
  let (result, after) := CommandLine.run Program.host before args
  Program.writeBack before after
  match result with
  | .error cause =>
    IO.eprint ("Interrupted: " ++ Symbol.shown cause.message ++ "\n")
    return 1
  | .ok output =>
    IO.print (Symbol.shown output.stdout)
    IO.eprint (Symbol.shown output.stderr)
    return output.exit.toUInt32
