import Scaffold.Fault
import Scaffold.Path

/-!
A file system as a value. Each location, a list of components below the root directory, holds at
most one entry. A tree is read through `entryAt` only; `entryAt_place` and `entryAt_remove` say what
the two edits do to it, and `walk` how a path is followed to a location.
-/

namespace Scaffold

/-- The components below the root directory. -/
abbrev Location := List String

attribute [local instance (high)] ByteArray.instDecidableEq

inductive Entry where
  | directory
  | file (mode : Nat) (bytes : ByteArray)
deriving DecidableEq

/-- A file system with the working directory that relative paths start from. -/
structure Tree where
  home : Location
  entries : List (Location × Entry)
deriving DecidableEq

namespace Tree

/-- What stands at a location. The root directory always stands. -/
def entryAt (t : Tree) (l : Location) : Option Entry :=
  if l = [] then some .directory else t.entries.lookup l

/-- Puts an entry at a location, in place of what was there. -/
def place (t : Tree) (l : Location) (e : Entry) : Tree :=
  { t with entries := (l, e) :: t.entries.filter (·.1 ≠ l) }

/-- Takes away what stands at a location. -/
def remove (t : Tree) (l : Location) : Tree :=
  { t with entries := t.entries.filter (·.1 ≠ l) }

/-- The most bytes that a component may have. -/
def nameLimit : Nat := 255

/-- Follows components from a location. Every component but the last must name a directory; whether
something stands at the end is not asked. -/
def walk (t : Tree) : Location → List String → Except Errno Location
  | l, [] => .ok l
  | l, part :: parts =>
    match t.entryAt l with
    | none => .error .noEntry
    | some (.file ..) => .error .notDirectory
    | some .directory =>
      if part = ".." then t.walk l.dropLast parts
      else if nameLimit < part.utf8ByteSize then .error .nameTooLong
      else t.walk (l ++ [part]) parts

/-- The location that a path starts from. -/
def startOf (t : Tree) (p : Path) : Location :=
  if p.isAbsolute then [] else t.home

/-- The location that a path leads to. -/
def locate (t : Tree) (p : Path) : Except Errno Location :=
  t.walk (t.startOf p) p.parts

/-- What a path leads to, or why it leads nowhere. -/
def find (t : Tree) (p : Path) : Except Errno Entry := do
  match t.entryAt (← t.locate p) with
  | some e => pure e
  | none => throw .noEntry

/-- Whether a path holds the null character, which no file name does. -/
def hasNull (p : Path) : Bool :=
  p.parts.any (·.toList.contains '\x00')

theorem lookup_dropped {k l : Location} (es : List (Location × Entry)) :
    (es.filter (·.1 ≠ l)).lookup k = if k = l then none else es.lookup k := by
  induction es with
  | nil => simp
  | cons a es ih =>
    obtain ⟨m, e⟩ := a
    by_cases hm : m = l
    · rw [List.filter_cons_of_neg (by simp [hm]), ih]
      split
      · rfl
      · next hk => rw [List.lookup_cons, beq_eq_false_iff_ne.2 (hm ▸ hk)]
    · rw [List.filter_cons_of_pos (by simp [hm]), List.lookup_cons, List.lookup_cons, ih]
      by_cases hk : k = l
      · simp [hk, beq_eq_false_iff_ne.2 (Ne.symm hm)]
      · simp [hk]

theorem entryAt_place (t : Tree) {l : Location} (e : Entry) (k : Location) (h : l ≠ []) :
    (t.place l e).entryAt k = if k = l then some e else t.entryAt k := by
  rw [entryAt, place, List.lookup_cons, lookup_dropped]
  by_cases hk : k = l
  · simp [hk, h]
  · simp [hk, beq_eq_false_iff_ne.2 hk, entryAt]

theorem entryAt_remove (t : Tree) {l : Location} (k : Location) (h : l ≠ []) :
    (t.remove l).entryAt k = if k = l then none else t.entryAt k := by
  rw [entryAt, remove, lookup_dropped]
  by_cases hk : k = l
  · simp [hk, h]
  · simp [hk, entryAt]

end Tree

end Scaffold
