import Scaffold.CommandLine

/-!
The program. It reads the files that a run can touch into a tree, runs on the tree, and writes back
what changed. Permissions are not read: an existing file that is replaced gets the usual ones.
-/

namespace Scaffold.Main

def absolute (l : Location) : String :=
  "/" ++ "/".intercalate l

/-- Adds what stands at a location, and everything below it. Links are not followed. -/
partial def readBelow (l : Location) (t : Tree) : IO Tree := do
  let path := (← IO.currentDir) / absolute l
  if !(← path.pathExists) then return t
  match (← path.symlinkMetadata).type with
  | .dir =>
    let mut t := { t with entries := (l, .directory) :: t.entries }
    for entry in ← path.readDir do
      t ← readBelow (l ++ [entry.fileName]) t
    return t
  | .file => return t.place l (.file 0o644 (← IO.FS.readBinFile path))
  | _ => return t

/-- Adds the directories above a location, and what stands there and below. -/
def readAt (t : Tree) (l : Location) : IO Tree := do
  let here ← IO.currentDir
  let mut t := t
  for n in List.range l.length do
    let above := l.take n
    if (t.entryAt above).isNone && (← (here / absolute above).isDir) then
      t := t.place above .directory
  readBelow l t

/-- The locations that a run can touch once its configuration is known. -/
def extent (home : Location) (c : Config) : List Location :=
  [c.applicationPath, c.overridePath, c.basePath / c.paths.views, c.basePath / c.paths.routes.api,
   c.basePath / c.paths.routes.web].map (·.resolveFrom home)

/-- The files that a run with arguments can touch. -/
def readFor (home : Location) (a : CommandLine.Arguments) (t : Tree) : IO Tree := do
  let file := (CommandLine.given a.config).toList.map fun s => (Path.ofString s).resolveFrom home
  let t ← file.foldlM readAt t
  match CommandLine.configuration home a t with
  | .error _ => pure t
  | .ok c => (extent home c).foldlM readAt t

/-- Writes a file by way of a second one, so that no reader sees half of it. -/
def writeFile (l : Location) (bytes : ByteArray) : IO Unit := do
  let draft := absolute l ++ ".part"
  IO.FS.writeBinFile draft bytes
  IO.FS.rename draft (absolute l)

/-- Brings the files from one tree to another. -/
def writeBack (before after : Tree) : IO Unit := do
  for (l, e) in after.entries.reverse do
    if before.entryAt l ≠ some e then
      match e with
      | .directory => IO.FS.createDirAll (absolute l)
      | .file _ bytes => writeFile l bytes

/-- Runs the program and gives its exit code. -/
def run (words : List String) : IO UInt32 := do
  let home := (Path.ofString (← IO.currentDir).toString).parts
  let start := Stubs.freshTree home
  let tree ← match CommandLine.Arguments.parse words with
    | .ok a => readFor home a start
    | .error _ => pure start
  let began ← IO.monoMsNow
  let _ ← IO.lazyPure fun _ => CommandLine.run home words 0 (.start tree)
  let elapsed := Float.ofNat ((← IO.monoMsNow) - began) / 1000
  let (outcome, w) := CommandLine.run home words elapsed (.start tree)
  writeBack tree w.tree
  for line in outcome.log do
    IO.eprintln line.text
  IO.eprint outcome.errors
  IO.print outcome.output
  match outcome.exit with
  | .ok code => pure code.toUInt32
  | .error fault =>
    IO.eprintln fault.message
    pure 1

end Scaffold.Main

def main (words : List String) : IO UInt32 :=
  Scaffold.Main.run words
