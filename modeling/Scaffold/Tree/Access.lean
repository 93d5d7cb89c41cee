import Scaffold.Text.Lines
import Scaffold.Tree

/-!
Reading a tree through paths. Questions about what stands at a path answer "nothing" for a path that
leads nowhere; only an obstacle of another kind, a component that is too long, is a fault. Reading a
file has no such leniency.
-/

namespace Scaffold.Tree

/-- The fault of an operation on `p` that is refused because of `cause`. -/
def refusal (cause : Errno) (p : Path) : Fault :=
  .os ⟨cause, p.toString, none⟩

/-- What stands at a path, if anything does. -/
def look (t : Tree) (p : Path) : Except Fault (Option Entry) :=
  if hasNull p then .ok none
  else match t.find p with
    | .ok e => .ok (some e)
    | .error .noEntry => .ok none
    | .error .notDirectory => .ok none
    | .error cause => .error (refusal cause p)

def stands (t : Tree) (p : Path) : Except Fault Bool :=
  (t.look p).map Option.isSome

def isFile (t : Tree) (p : Path) : Except Fault Bool :=
  (t.look p).map fun e => e matches some (.file ..)

def isDirectory (t : Tree) (p : Path) : Except Fault Bool :=
  (t.look p).map fun e => e matches some .directory

/-- The bytes of the file at a path. -/
def readBytes (t : Tree) (p : Path) : Except Fault ByteArray :=
  if hasNull p then .error .nullInPath
  else match t.find p with
    | .ok (.file _ bytes) => .ok bytes
    | .ok .directory => .error (refusal .isDirectory p)
    | .error cause => .error (refusal cause p)

/-- The text of the file at a path, with every line end as a newline. -/
def readText (t : Tree) (p : Path) : Except Fault String := do
  match String.fromUTF8? (← t.readBytes p) with
  | some s => pure (.ofList (Text.unifyNewlines s.toList))
  | none => throw .notUtf8

end Scaffold.Tree
