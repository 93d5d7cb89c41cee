import Scaffold.Proofs.Template.Fill

/-!
# Templates in pieces

A template is written here as rows of pieces, literal texts and placeholders. Filling it goes through
the rows one by one (`fillChars_rows`), since a literal text without an opening brace cannot be mistaken
for a placeholder and a value is never scanned again.
-/

namespace Scaffold.Template

/-- A part of a template: a literal text, or a placeholder with a space on each side of its key. -/
inductive Piece where
  | text (s : String)
  | slot (key : String)
deriving DecidableEq

/-- What a template has on one line. -/
abbrev Row := List Piece

namespace Piece

def source : Piece → List Char
  | text s => s.toList
  | slot key => '{' :: '{' :: ' ' :: key.toList ++ [' ', '}', '}']

/-- The piece with the value of its key. -/
def filled (value? : List Char → Option (List Char)) : Piece → List Char
  | text s => s.toList
  | slot key => (value? key.toList).getD []

/-- Whether the piece is read as what it is meant to be. -/
def isWhole : Piece → Bool
  | text s => !s.toList.contains '{'
  | slot key =>
    match key.toList with
    | [] => false
    | c :: cs => isKeyStart c && cs.all isKeyRest

end Piece

namespace Row

def source (row : Row) : List Char :=
  row.flatMap Piece.source

def filled (value? : List Char → Option (List Char)) (row : Row) : List Char :=
  row.flatMap (Piece.filled value?)

end Row

variable {value? : List Char → Option (List Char)} {cs ds key' rest : List Char} {key s : String} {v : List Char}
  {subs subs' : List (String × String)} {p : Piece} {row : Row} {rows : List Row}

section Fill

theorem fillChars_of_none {c : Char} (h : placeholder? (c :: cs) = none) :
    fillChars value? (c :: cs) = c :: fillChars value? cs := by
  rw [fillChars]
  split
  · next heq => rw [h] at heq; cases heq
  · rfl

theorem fillChars_of_some {c : Char} (h : placeholder? (c :: cs) = some (key', rest)) :
    fillChars value? (c :: cs) = match value? key' with
      | some value => value ++ fillChars value? rest
      | none => c :: fillChars value? cs := by
  rw [fillChars]
  split
  · next heq =>
    rw [h] at heq
    cases heq
    cases value? key' <;> rfl
  · next heq => rw [h] at heq; cases heq

theorem fillChars_cons_of_ne {c : Char} (h : c ≠ '{') :
    fillChars value? (c :: cs) = c :: fillChars value? cs := by
  refine fillChars_of_none ?_
  unfold placeholder?
  split
  · next heq => exact absurd (List.cons.inj heq).1 h
  · next heq => exact absurd (List.cons.inj heq).1 h
  · rfl

theorem fillChars_append (h : '{' ∉ cs) :
    fillChars value? (cs ++ rest) = cs ++ fillChars value? rest := by
  induction cs with
  | nil => rfl
  | cons c cs ih =>
    rw [List.cons_append, fillChars_cons_of_ne fun e => h (e ▸ List.mem_cons_self ..),
      ih fun hm => h (List.mem_cons_of_mem _ hm), List.cons_append]

theorem placeholder?_slot (h : (Piece.slot key).isWhole = true) (rest : List Char) :
    placeholder? ((Piece.slot key).source ++ rest) = some (key.toList, rest) := by
  have hkey : IsKey key.toList := by
    cases hkey : key.toList with
    | nil => simp [Piece.isWhole, hkey] at h
    | cons c cs => simpa [Piece.isWhole, hkey, IsKey] using h
  exact placeholder?_eq_some.2
    ⟨⟨key.toList, true, hkey⟩, rfl, by simp [Piece.source, Placeholder.text, Placeholder.inner, Placeholder.gap]⟩

theorem fillChars_piece (h : p.isWhole = true) (hv : ∀ key, p = .slot key → (value? key.toList).isSome)
    (rest : List Char) : fillChars value? (p.source ++ rest) = p.filled value? ++ fillChars value? rest := by
  cases p with
  | text s =>
    simp only [Piece.isWhole, Bool.not_eq_true', List.contains_eq_mem, decide_eq_false_iff_not] at h
    exact fillChars_append h
  | slot key =>
    obtain ⟨v, hv⟩ := Option.isSome_iff_exists.1 (hv key rfl)
    have hread := placeholder?_slot h rest
    simp only [Piece.source, List.cons_append] at hread ⊢
    rw [fillChars_of_some hread, hv, Piece.filled, hv, Option.getD_some]

theorem fillChars_row (h : ∀ p ∈ row, p.isWhole = true)
    (hv : ∀ key, .slot key ∈ row → (value? key.toList).isSome) (rest : List Char) :
    fillChars value? (row.source ++ rest) = row.filled value? ++ fillChars value? rest := by
  induction row with
  | nil => rfl
  | cons p row ih =>
    have hp := fillChars_piece (h p (List.mem_cons_self ..))
      (fun key hkey => hv key (hkey ▸ List.mem_cons_self ..)) (Row.source row ++ rest)
    have hrow := ih (fun q hq => h q (List.mem_cons_of_mem _ hq))
      fun key hkey => hv key (List.mem_cons_of_mem _ hkey)
    simp only [Row.source, Row.filled, List.flatMap_cons, List.append_assoc] at hp hrow ⊢
    rw [hp, hrow]

theorem fillChars_source (h : ∀ p ∈ row, p.isWhole = true)
    (hv : ∀ key, .slot key ∈ row → (value? key.toList).isSome) : fillChars value? row.source = row.filled value? := by
  have hfilled := fillChars_row h hv []
  rwa [List.append_nil, show fillChars value? [] = [] by simp [fillChars], List.append_nil] at hfilled

/-- No placeholder goes over the end of a line. -/
theorem Placeholder.newline_notMem_text (p : Placeholder) : '\n' ∉ p.text := by
  have hkey : '\n' ∉ p.key := fun h => absurd (p.isKey.isKeyRest h) (by decide)
  have hgap : '\n' ∉ p.gap := by unfold gap; split <;> decide
  simp [text, inner, hkey, hgap]

theorem placeholder?_append_newline (cs ds : List Char) : placeholder? (cs ++ '\n' :: ds) =
    (placeholder? cs).map fun (key, rest) => (key, rest ++ '\n' :: ds) := by
  cases hfull : placeholder? (cs ++ '\n' :: ds) with
  | none =>
    cases h : placeholder? cs with
    | none => rfl
    | some a =>
      obtain ⟨p, hkey, rfl⟩ := placeholder?_eq_some.1 h
      rw [List.append_assoc, placeholder?_eq_some.2 ⟨p, hkey, rfl⟩] at hfull
      cases hfull
  | some a =>
    obtain ⟨key, tail⟩ := a
    obtain ⟨p, hkey, happend⟩ := placeholder?_eq_some.1 hfull
    rcases List.append_eq_append_iff.1 happend with ⟨as, htext, htail⟩ | ⟨bs, hcs, hrest⟩
    · cases as with
      | nil =>
        rw [List.append_nil] at htext
        rw [List.nil_append] at htail
        rw [placeholder?_eq_some.2 ⟨p, hkey, (htext ▸ (List.append_nil _).symm : cs = p.text ++ [])⟩, Option.map_some,
          htail]
        rfl
      | cons d as =>
        obtain ⟨rfl, -⟩ := List.cons.inj htail
        exact absurd (htext ▸ by simp) p.newline_notMem_text
    · rw [placeholder?_eq_some.2 ⟨p, hkey, hcs⟩, hrest]
      rfl

/-- A text is filled line by line. -/
theorem fillChars_append_newline (cs ds : List Char) :
    fillChars value? (cs ++ '\n' :: ds) = fillChars value? cs ++ '\n' :: fillChars value? ds := by
  fun_induction fillChars value? cs with
  | case1 => rw [List.nil_append, fillChars_cons_of_ne (by decide), List.nil_append]
  | case2 c cs key rest hread value hvalue _ ih =>
    have hfull := placeholder?_append_newline (c :: cs) ds
    rw [hread, Option.map_some] at hfull
    rw [List.cons_append] at hfull ⊢
    rw [fillChars_of_some hfull, hvalue, ih, List.append_assoc]
  | case3 c cs key rest hread hvalue ih =>
    have hfull := placeholder?_append_newline (c :: cs) ds
    rw [hread, Option.map_some] at hfull
    rw [List.cons_append] at hfull ⊢
    rw [fillChars_of_some hfull, hvalue, ih, List.cons_append]
  | case4 c cs hread ih =>
    have hfull := placeholder?_append_newline (c :: cs) ds
    rw [hread, Option.map_none] at hfull
    rw [List.cons_append] at hfull ⊢
    rw [fillChars_of_none hfull, ih, List.cons_append]

theorem fillChars_intercalate (ls : List (List Char)) :
    fillChars value? (['\n'].intercalate ls) = ['\n'].intercalate (ls.map (fillChars value?)) := by
  induction ls with
  | nil => simp [fillChars]
  | cons l ls ih =>
    cases ls with
    | nil => simp
    | cons l' ls =>
      rw [List.intercalate_cons_cons, List.append_assoc, List.singleton_append, fillChars_append_newline, ih,
        List.map_cons, List.map_cons, List.map_cons, List.intercalate_cons_cons, List.append_assoc,
        List.singleton_append]

theorem fillChars_rows (h : ∀ row ∈ rows, ∀ p ∈ row, p.isWhole = true)
    (hv : ∀ row ∈ rows, ∀ key, .slot key ∈ row → (value? key.toList).isSome) :
    fillChars value? (['\n'].intercalate (rows.map Row.source)) =
      ['\n'].intercalate (rows.map (Row.filled value?)) := by
  rw [fillChars_intercalate, List.map_map]
  exact congrArg _ (List.map_congr_left fun row hrow => fillChars_source (h row hrow) (hv row hrow))

/-- A placeholder opens with two braces. -/
theorem fillChars_of_count (h : cs.count '{' ≤ 1) : fillChars value? cs = cs := by
  induction cs with
  | nil => simp [fillChars]
  | cons c cs ih =>
    have hnone : placeholder? (c :: cs) = none := by
      rw [Option.eq_none_iff_forall_ne_some]
      rintro ⟨key, rest⟩ hread
      obtain ⟨p, -, heq⟩ := placeholder?_eq_some.1 hread
      rw [heq, Placeholder.text, List.cons_append, List.cons_append, List.count_cons_self, List.count_cons_self] at h
      omega
    rw [fillChars_of_none hnone, ih (Nat.le_trans List.count_le_count_cons h)]

end Fill

section Value

/-- Later substitutions count more. -/
theorem valueOf_append_right (h : valueOf subs' key.toList = some v) :
    valueOf (subs ++ subs') key.toList = some v := by
  obtain ⟨s, hs, rfl⟩ := Option.map_eq_some_iff.1 h
  simp only [valueOf, List.reverse_append, List.lookup_append, hs, Option.some_or, Option.map_some]

theorem valueOf_append_left (h : ∀ a ∈ subs', a.1 ≠ key) :
    valueOf (subs ++ subs') key.toList = valueOf subs key.toList := by
  have hnone : subs'.reverse.lookup key = none :=
    List.lookup_eq_none_iff.2 fun a ha => by
      simpa using (h a (List.mem_reverse.1 ha)).symm
  simp only [valueOf, List.reverse_append, List.lookup_append, String.ofList_toList, hnone, Option.none_or]

end Value

end Scaffold.Template
