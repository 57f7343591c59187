import ProviderTypes.Files.System
import ProviderTypes.OrderedMap
/-!
# ProviderTypes.Files.Disk

A file system as a value, the one that the program runs on: files and directories by their place
below or around the working directory. Files that the system does not open are known with the
error that it answers.
-/

namespace ProviderTypes

/-- What stands at a place. -/
inductive DiskEntry where
  | file (bytes : List UInt8)
  | directory
  /-- What the system does not open, with its answer. -/
  | sealed (e : SystemFault)
  deriving DecidableEq, Repr

/-- A place in the file system: the names on the way from the working directory, after as many
    double dots as lead above it; an absolute place starts with its root. -/
abbrev Location := List String

/-- Files and directories. The working directory and those above it are always there. -/
structure Disk where
  /-- The absolute path of the working directory. -/
  workingDirectory : String
  entries : OrderedMap Location DiskEntry := .empty
  deriving Inhabited

namespace Disk

/-! ## Places -/

/-- The root of an absolute place. -/
def isRoot (name : String) : Bool := name = "/" || name = "//"

/-- Whether a directory always stands at a place. -/
def isGiven : Location → Bool
  | [] => true
  | [name] => isRoot name || name = ".."
  | names => names.all (· = "..")

/-- The place one level up. -/
def above (l : Location) : Location :=
  match l with
  | [name] => if isRoot name then [name] else if name = ".." then ["..", ".."] else []
  | names => if names.all (· = "..") then names ++ [".."] else names.dropLast

/-- The place that a path leads to if all names on the way stand for directories. -/
def place (p : Path) : Location :=
  p.parts.foldl (fun l name => if name = ".." then above l else l ++ [name])
    (if p.root = "" then [] else [p.root])

/-- What stands at a place. -/
def entry? (d : Disk) (l : Location) : Option DiskEntry :=
  if isGiven l then some .directory else d.entries.get? l

/-! ## Faults -/

def notFound : SystemFault := ⟨SystemFault.notFound, "No such file or directory", none⟩

def alreadyExists : SystemFault := ⟨17, "File exists", none⟩

def notDirectory : SystemFault := ⟨20, "Not a directory", none⟩

def isDirectory : SystemFault := ⟨21, "Is a directory", none⟩

def nameTooLong : SystemFault := ⟨36, "File name too long", none⟩

/-- An error with a path. -/
def fault (e : SystemFault) (p : Path) : FileFault := .system { e with path := some p.text }

/-! ## Paths -/

/-- The place that names lead to from a directory. All but the last name have to lead to
    directories; what stands at the last is for the caller. -/
def walk (d : Disk) (l : Location) : List String → Except SystemFault Location
  | [] => .ok l
  | name :: rest =>
    if name = ".." then d.walk (above l) rest
    else if 255 < Utf8.size name then .error nameTooLong
    else
      let here := l ++ [name]
      if rest.isEmpty then .ok here
      else
        match d.entry? here with
        | some .directory => d.walk here rest
        | some (.file _) => .error notDirectory
        | some (.sealed e) => .error e
        | none => .error notFound

def hasNull (p : Path) : Bool := p.parts.any fun part => part.toList.contains '\x00'

/-- The number of bytes that a path has to stay below. -/
def pathLimit : Nat := 4096

/-- The place that a path leads to. -/
def locate (d : Disk) (p : Path) : Except FileFault Location :=
  if hasNull p then .error .nullCharacter
  else if (Utf8.encode? p.text).isNone then .error .notEncodable
  else if pathLimit ≤ Utf8.size p.text then .error (fault nameTooLong p)
  else (d.walk (if p.root = "" then [] else [p.root]) p.parts).mapError fun e => fault e p

def find (d : Disk) (p : Path) : Except FileFault DiskEntry := do
  match d.entry? (← d.locate p) with
  | some e => return e
  | none => .error (fault notFound p)

/-- The absolute form of a place. -/
def absolute (d : Disk) (l : Location) : String :=
  match l with
  | [] => d.workingDirectory
  | name :: rest =>
    if isRoot name then "/" ++ "/".intercalate rest
    else
      let start := Path.ofText d.workingDirectory
      let below := l.dropWhile (· = "..")
      let kept := start.parts.take (start.parts.length - (l.length - below.length))
      ({ start with parts := kept ++ below } : Path).text

/-! ## Operations -/

/-- The disk with something at a place. -/
def put (d : Disk) (l : Location) (e : DiskEntry) : Disk :=
  { d with entries := d.entries.insert l e }

/-- The kind of what stands at a path. -/
def look (d : Disk) (p : Path) : Except FileFault FileKind := do
  match ← d.find p with
  | .directory => return .directory
  | _ => return .other

def readFile (d : Disk) (p : Path) : Except FileFault (List UInt8) := do
  match ← d.find p with
  | .file bytes => return bytes
  | .directory => .error (fault isDirectory p)
  | .sealed e => .error (fault e p)

/-- Make a directory; its parent has to be there. -/
def makeDirectory (d : Disk) (p : Path) : Except FileFault Unit × Disk :=
  match d.locate p with
  | .error f => (.error f, d)
  | .ok l =>
    match d.entry? l with
    | some _ => (.error (fault alreadyExists p), d)
    | none => (.ok (), d.put l .directory)

/-- Open a file for writing; its directory has to be there. -/
def openEmpty (d : Disk) (p : Path) : Except FileFault Unit × Disk :=
  match d.locate p with
  | .error f => (.error f, d)
  | .ok l =>
    match d.entry? l with
    | some .directory => (.error (fault isDirectory p), d)
    | some (.sealed e) => (.error (fault e p), d)
    | _ => (.ok (), d.put l (.file []))

def fill (d : Disk) (p : Path) (bytes : List UInt8) : Except SystemFault Unit × Disk :=
  match d.locate p with
  | .error _ => (.error notFound, d)
  | .ok l => (.ok (), d.put l (.file bytes))

/-- The absolute form of a path. -/
def resolve (d : Disk) (p : Path) : Except FileFault String :=
  match d.locate p with
  | .ok l => .ok (d.absolute l)
  | .error (.system _) => .ok (d.workingDirectory ++ "/" ++ p.text)
  | .error f => .error f

def fileSystem : FileSystem Disk where
  look := look
  read := readFile
  makeDirectory := makeDirectory
  openEmpty := openEmpty
  fill := fill
  resolve := resolve

/-- The files with their places, in order. -/
def files (d : Disk) : List (Location × List UInt8) :=
  d.entries.entries.filterMap fun e =>
    match e.2 with
    | .file bytes => some (e.1, bytes)
    | _ => none

end Disk

end ProviderTypes
