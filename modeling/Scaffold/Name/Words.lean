/-!
The words of an identifier. A name in any style (`InvoiceLine`, `invoice_line`, `HTTP2Server`) is cut
into runs of ASCII letters and digits. Characters outside that alphabet separate runs and are
dropped; inside a run a `Cut` says between which neighbours it ends. Nothing else is lost:
`flatten_runs`.
-/

namespace Scaffold.Name

/-- Whether a run ends between `a` and `b`, given the character after `b`, if there is one. -/
abbrev Cut := (a b : Char) → (next : Option Char) → Bool

/-- In `HTTPServer` the last capital before a small letter starts a run of its own. -/
def startsCapitalised (a b : Char) (next : Option Char) : Bool :=
  a.isUpper && b.isUpper && next.any Char.isLower

/-- Words end before a capital that follows a small letter, before the last capital of several when
a small letter follows it, and between letters and digits. -/
def wordCut : Cut := fun a b next =>
  a.isDigit != b.isDigit || a.isLower && b.isUpper || startsCapitalised a b next

/-- Whether the run that holds `c` goes on into the characters after it. -/
def goesOn (cut : Cut) (c : Char) : List Char → Bool
  | [] => false
  | d :: rest => d.isAlphanum && !cut c d rest.head?

/-- The runs of ASCII letters and digits in a text, each ended where `cut` says. -/
def runs (cut : Cut) : List Char → List (List Char)
  | [] => []
  | c :: cs =>
    if c.isAlphanum then
      match runs cut cs with
      | [] => [[c]]
      | run :: rest => if goesOn cut c cs then (c :: run) :: rest else [c] :: run :: rest
    else runs cut cs

/-- The words of a text, in lower case. -/
def words (cs : List Char) : List (List Char) :=
  (runs wordCut cs).map (·.map Char.toLower)

theorem runs_cons_of_not_alphanum {cut : Cut} {c : Char} {cs : List Char}
    (h : c.isAlphanum = false) : runs cut (c :: cs) = runs cut cs := by
  simp [runs, h]

theorem flatten_runs (cut : Cut) (cs : List Char) :
    (runs cut cs).flatten = cs.filter Char.isAlphanum := by
  induction cs with
  | nil => rfl
  | cons c cs ih =>
    rw [runs]
    split
    · next h =>
      rw [List.filter_cons_of_pos h, ← ih]
      split
      · next hr => simp [hr]
      · next hr => split <;> simp [hr]
    · next h => rw [List.filter_cons_of_neg h, ih]

theorem ne_nil_of_mem_runs {cut : Cut} {cs run : List Char} (h : run ∈ runs cut cs) : run ≠ [] := by
  induction cs generalizing run with
  | nil => simp [runs] at h
  | cons c cs ih =>
    rw [runs] at h
    split at h
    · split at h
      · simp_all
      · next hr =>
        split at h
        · rcases List.mem_cons.1 h with rfl | h
          · simp
          · exact ih (hr ▸ List.mem_cons_of_mem _ h)
        · rcases List.mem_cons.1 h with rfl | h
          · simp
          · exact ih (hr ▸ h)
    · exact ih h

end Scaffold.Name
