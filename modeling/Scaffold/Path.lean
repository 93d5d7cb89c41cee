import Scaffold.Text.Lines

/-!
Paths as users write them. Repeated slashes, `.` components and a final slash carry no meaning and
are dropped on reading; `..` is kept, because what it names depends on the file system. Joining an
absolute path replaces what stands before it.
-/

namespace Scaffold

/-- How a path starts: exactly two slashes are kept apart from any other number of them. -/
inductive Anchor where
  | relative
  | root
  | doubleRoot
deriving Repr, DecidableEq

def Anchor.text : Anchor → String
  | .relative => ""
  | .root => "/"
  | .doubleRoot => "//"

structure Path where
  anchor : Anchor
  parts : List String
deriving Repr, DecidableEq

namespace Path

/-- The path of the working directory. -/
def here : Path :=
  ⟨.relative, []⟩

instance : Inhabited Path := ⟨here⟩

/-- The anchor of a text with `n` leading slashes. -/
def anchorOf : (n : Nat) → Anchor
  | 0 => .relative
  | 2 => .doubleRoot
  | _ => .root

def ofString (s : String) : Path where
  anchor := anchorOf (s.toList.takeWhile (· == '/')).length
  parts := ((Text.splitAtChar '/' s.toList).map String.ofList).filter fun p => p ≠ "" && p ≠ "."

def toString (p : Path) : String :=
  match p.anchor, p.parts with
  | .relative, [] => "."
  | a, parts => a.text ++ "/".intercalate parts

instance : ToString Path := ⟨toString⟩

def isAbsolute (p : Path) : Bool :=
  p.anchor ≠ .relative

/-- Whether some component leads to a parent directory. -/
def climbs (p : Path) : Bool :=
  p.parts.contains ".."

/-- `q` seen from `p`. -/
def append (p q : Path) : Path :=
  if q.isAbsolute then q else ⟨p.anchor, p.parts ++ q.parts⟩

/-- The path that `s` writes, seen from `p`. -/
def join (p : Path) (s : String) : Path :=
  p.append (ofString s)

instance : HDiv Path String Path := ⟨join⟩

/-- The path without its last component. -/
def parent (p : Path) : Path :=
  ⟨p.anchor, p.parts.dropLast⟩

/-- The last component, empty if there is none. -/
def name (p : Path) : String :=
  p.parts.getLast?.getD ""

/-- The components of `p` below the root directory when `p` is followed from `home` by name alone: a
`..` takes back the component before it. -/
def resolveFrom (home : List String) (p : Path) : List String :=
  p.parts.foldl (fun l part => if part = ".." then l.dropLast else l ++ [part])
    (if p.isAbsolute then [] else home)

/-- The absolute path of `p`, followed by name alone. -/
def resolved (home : List String) (p : Path) : Path :=
  ⟨.root, p.resolveFrom home⟩

@[simp] theorem append_of_isAbsolute {p q : Path} (h : q.isAbsolute = true) : p.append q = q := by
  simp [append, h]

theorem parts_append {p q : Path} (h : q.isAbsolute = false) :
    (p.append q).parts = p.parts ++ q.parts := by
  simp [append, h]

end Path

end Scaffold
