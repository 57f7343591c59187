import ProviderTypes.Files.Path
import ProviderTypes.Text.Lines
import ProviderTypes.Text.Quoted
import ProviderTypes.Text.Utf8
/-!
# ProviderTypes.Files.System

What a run asks of a file system, and what it makes of the answers. A file system is given by its
operations on states of any kind, and each of them may fail. A file is written in two steps: it is
opened, which makes it or takes everything out of it, and then it is filled, which may fail
half-way.
-/

namespace ProviderTypes

/-- An error that the system reports. -/
structure SystemFault where
  number : Nat
  text : String
  /-- The path that the error is about, if it is about one. -/
  path : Option String := none
  deriving DecidableEq, Repr

namespace SystemFault

/-- The number of the error that something on a path is missing. -/
def notFound : Nat := 2

def message (e : SystemFault) : String :=
  "[Errno " ++ toString e.number ++ "] " ++ e.text ++
    (e.path.map fun path => ": " ++ quoted path).getD ""

/-- Whether an error says that nothing stands at a path: something is missing, a descriptor is
    closed, what leads on is no directory, or links lead around. -/
def meansNothing (e : SystemFault) : Bool := [notFound, 9, 20, 40].contains e.number

end SystemFault

/-- Why an operation on a file fails. -/
inductive FileFault where
  | system (e : SystemFault)
  /-- A path with the null character cannot be handed over. -/
  | nullCharacter
  /-- A path or a text with half of a surrogate pair has no bytes. -/
  | notEncodable
  /-- The links on a path lead around. -/
  | linkLoop
  deriving DecidableEq, Repr

/-- The kind of what stands at a path. -/
inductive FileKind where
  | directory
  | other
  deriving DecidableEq, Repr

/-- The operations of a file system. -/
structure FileSystem (σ : Type) where
  look : σ → Path → Except FileFault FileKind
  /-- The bytes of the file at a path. -/
  read : σ → Path → Except FileFault (List UInt8)
  makeDirectory : σ → Path → Except FileFault Unit × σ
  /-- Open the file at a path for writing. A file that is there loses what it holds. -/
  openEmpty : σ → Path → Except FileFault Unit × σ
  /-- Write bytes to the file that was opened at a path, and close it. -/
  fill : σ → Path → List UInt8 → Except SystemFault Unit × σ
  /-- The absolute form of a path. -/
  resolve : σ → Path → Except FileFault String

/-- The text of a file, every line ending read as one line feed. -/
def fileText (bytes : List UInt8) : Except Utf8.Fault String :=
  (fun s => String.ofList (unifyNewlines s.toList)) <$> Utf8.decode bytes

namespace FileSystem

variable {σ : Type} (fs : FileSystem σ)

/-- What stands at a path, if anything does. A path that cannot be handed over leads to nothing. -/
def status? (d : σ) (p : Path) : Except FileFault (Option FileKind) :=
  match fs.look d p with
  | .ok kind => .ok (some kind)
  | .error (.system e) => if e.meansNothing then .ok none else .error (.system e)
  | .error .linkLoop => .error .linkLoop
  | .error .nullCharacter | .error .notEncodable => .ok none

def pathExists (d : σ) (p : Path) : Except FileFault Bool := (fs.status? d p).map Option.isSome

/-! ## Directories -/

/-- What it means that a directory was made or not: it may have been there before. The system may
    name another error before that. -/
def acceptDirectory (p : Path) : Except FileFault Unit × σ → Except FileFault Unit × σ
  | (.error (.system e), d) =>
    if e.number = SystemFault.notFound then (.error (.system e), d)
    else
      match fs.status? d p with
      | .ok (some .directory) => (.ok (), d)
      | .ok _ => (.error (.system e), d)
      | .error f => (.error f, d)
  | answer => answer

/-- Make a directory, unless one is there. -/
def ensureDirectory (d : σ) (p : Path) : Except FileFault Unit × σ :=
  fs.acceptDirectory p (fs.makeDirectory d p)

/-- Make the directory that names lead to from a root, the last name first, with all those on the
    way, unless they are there. -/
def ensureNames (root : String) (d : σ) : (names : List String) → Except FileFault Unit × σ
  | [] => fs.ensureDirectory d ⟨root, []⟩
  | name :: above =>
    let p : Path := ⟨root, (name :: above).reverse⟩
    match fs.makeDirectory d p with
    | (.error (.system e), d) =>
      if e.number = SystemFault.notFound then
        match ensureNames root d above with
        | (.ok (), d) => fs.ensureDirectory d p
        | failed => failed
      else fs.acceptDirectory p (.error (.system e), d)
    | answer => answer

/-- Make a directory with all that lead to it, unless they are there. -/
def ensureDirectories (d : σ) (p : Path) : Except FileFault Unit × σ :=
  fs.ensureNames p.root d p.parts.reverse

/-! ## Files -/

/-- Write a text to a file, whatever the file held. A text without bytes is found when the file is
    empty already. -/
def writeText (d : σ) (p : Path) (text : String) : Except FileFault Unit × σ :=
  match fs.openEmpty d p with
  | (.error f, d) => (.error f, d)
  | (.ok (), d) =>
    match Utf8.encode? text with
    | none => (.error .notEncodable, d)
    | some bytes =>
      match fs.fill d p bytes with
      | (.error e, d) => (.error (.system e), d)
      | (.ok (), d) => (.ok (), d)

end FileSystem

end ProviderTypes
