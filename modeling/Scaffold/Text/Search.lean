/-!
Searching for one text inside another, by characters.
-/

namespace Scaffold.Text

/-- Whether `needle` stands somewhere in `cs`, as a run of consecutive characters. -/
def contains (needle : List Char) : List Char → Bool
  | [] => needle.isEmpty
  | c :: cs => needle.isPrefixOf (c :: cs) || contains needle cs

/-- Whether `part` stands somewhere in `s`. -/
def mentions (s part : String) : Bool :=
  contains part.toList s.toList

/-- Whether `s` starts with `start`. -/
def startsWith (s start : String) : Bool :=
  start.toList.isPrefixOf s.toList

/-- Whether `s` ends with `tail`. -/
def endsWith (s tail : String) : Bool :=
  tail.toList.isSuffixOf s.toList

theorem contains_iff_infix (needle cs : List Char) :
    contains needle cs = true ↔ needle <:+: cs := by
  induction cs with
  | nil => simp [contains]
  | cons c cs ih => simp [contains, ih, List.infix_cons_iff]

end Scaffold.Text
