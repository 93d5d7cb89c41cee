import Scaffold.Digest
import Scaffold.Tree.Access

/-!
Changing a tree. A refused edit reports its fault and may leave directories behind that it created on
the way, never a file: `replaceFile` writes to a temporary file beside the target and renames it, so
the target holds either what it held before or the whole new text.
-/

namespace Scaffold

/-- What is known of a file after it was written. -/
structure WrittenFile where
  path : String
  size : Nat
  lines : Nat
  digest : String
deriving Repr, DecidableEq

/-- A change of the tree that may be refused half way. -/
abbrev Edit := EStateM Fault Tree

namespace Tree

/-- Creates the directory `p`. All above it must stand. -/
def makeDir (t : Tree) (p : Path) : Except Errno Tree := do
  let l ← t.locate p
  if (t.entryAt l).isSome then throw .alreadyExists else pure (t.place l .directory)

/-- What becomes of a refused attempt to create `p`: a directory that stands already is fine. -/
def settle (t : Tree) (p : Path) (cause : Errno) : EStateM.Result Fault Tree Unit :=
  match t.find p with
  | .ok .directory => .ok () t
  | _ => .error (refusal cause p) t

/-- Creates the directory `p` unless it stands. It is tried first, and its own obstacle reported;
only where something above it is missing, the directory above is created in the same way. -/
def ensureDir (t : Tree) (p : Path) : EStateM.Result Fault Tree Unit :=
  match t.makeDir p with
  | .ok t => .ok () t
  | .error cause =>
    if cause = .noEntry ∧ p.parts ≠ [] then
      match ensureDir t p.parent with
      | .error f t => .error f t
      | .ok _ t =>
        match t.makeDir p with
        | .ok t => .ok () t
        | .error cause => t.settle p cause
    else t.settle p cause
termination_by p.parts.length
decreasing_by
  rename_i h
  simp only [Path.parent, List.length_dropLast]
  have := List.length_pos_iff.2 h.2
  omega

end Tree

namespace Edit

def makeDirs (p : Path) : Edit Unit := fun t =>
  if Tree.hasNull p then .error .nullInPath t else t.ensureDir p

/-- The mode of a new file: all may read and write it, but for what the process masks. -/
def newModeUnder (mask : Nat) : Nat :=
  0o666 - (0o666 &&& mask)

/-- What the process masks. -/
def umask : Nat := 0o022

/-- The mode of a new file. -/
def newFileMode : Nat :=
  newModeUnder umask

/-- The mode that a file written to `p` gets: that of the file it replaces. -/
def modeFor (mask : Nat) (t : Tree) (p : Path) : Except Fault Nat :=
  match t.find p with
  | .ok (.file mode _) => .ok mode
  | .ok .directory => .ok 0o755
  | .error .noEntry => .ok (newModeUnder mask)
  | .error cause => .error (Tree.refusal cause p)

/-- The `n`-th name for a temporary file beside a file called `name`. -/
def tempName (name : String) (n : Nat) : String :=
  let digits := Nat.toDigits 10 n
  s!".{name}." ++ .ofList (List.replicate (8 - digits.length) '0' ++ digits) ++ ".tmp"

/-- How many names are tried for a temporary file. -/
def tempTries : Nat := 10000

/-- The first free name for a temporary file in the directory at `l`. -/
def freeName? (t : Tree) (l : Location) (name : String) : (tries : Nat) → Option String
  | 0 => none
  | tries + 1 =>
    let temp := tempName name (tempTries - (tries + 1))
    if (t.entryAt (l ++ [temp])).isNone then some temp else freeName? t l name tries

/-- The text of the location below the directory of `p`, as an absolute path. -/
def absoluteText (p : Path) (l : Location) : String :=
  (if p.anchor = .doubleRoot then "//" else "/") ++ "/".intercalate l

/-- Why no file can be renamed to `p`, if so. -/
def renameObstacle (t : Tree) (p : Path) : Option Errno :=
  if p.name = "" || p.name = ".." then some .busy
  else match t.find p with
    | .ok .directory => some .isDirectory
    | .ok (.file ..) => none
    | .error .noEntry => none
    | .error cause => some cause

/-- Renames the file at `temp` to the path `p`, or removes it when that is refused. -/
def rename (temp : Location) (e : Entry) (p : Path) : Edit Unit := fun t =>
  let refused (cause : Errno) : EStateM.Result Fault Tree Unit :=
    .error (.os ⟨cause, absoluteText p temp, some p.toString⟩) (t.remove temp)
  match renameObstacle t p, t.locate p with
  | some cause, _ => refused cause
  | none, .error cause => refused cause
  | none, .ok l => .ok () ((t.remove temp).place l e)

/-- Writes a whole text to a file, creating the directories above it, in a process with the given mask. -/
def replaceFileUnder (mask : Nat) (p : Path) (text : String) : Edit WrittenFile := do
  makeDirs p.parent
  let t ← get
  if Tree.hasNull p then throw .nullInPath
  let mode ← ofExcept (modeFor mask t p)
  let above ← ofExcept ((t.locate p.parent).mapError (Tree.refusal · p.parent))
  let first := above ++ [tempName p.name 0]
  if Tree.nameLimit < (tempName p.name 0).utf8ByteSize then
    throw (.os ⟨.nameTooLong, absoluteText p first, none⟩)
  match freeName? t above p.name tempTries with
  | none => throw (.os ⟨.alreadyExists, absoluteText p first, none⟩)
  | some name =>
    let bytes := text.toUTF8
    let temp := above ++ [name]
    let e := Entry.file mode bytes
    set (t.place temp e)
    rename temp e p
    pure { path := p.toString, size := bytes.size, lines := Text.countLines text,
           digest := Digest.sha256 bytes }

def replaceFile (p : Path) (text : String) : Edit WrittenFile :=
  replaceFileUnder umask p text

end Edit

end Scaffold
