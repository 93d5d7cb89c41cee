import Mathlib.Data.List.DropRight
import Mathlib.Data.List.Infix
import Scaffold.Text.Blank
import Scaffold.Text.Lines
import Scaffold.Text.Search

/-!
# The lines that a written text is read back with

A text is written as it is and read with all line ends as newlines, so a carriage return inside a line
cuts it in two. `readBack` lists the lines with something on them that come back. It is a homomorphism
at newlines (`readBack_append_newline`, `readBack_joined`), whatever carriage returns stand before
them, and that is all that later modules use of the two ways to write a line end.
-/

namespace Scaffold.Text
variable {sep c : Char} {as bs cs piece needle : List Char} {s : String}

section Split

theorem splitAtChar_eq_splitOn (sep : Char) (cs : List Char) : splitAtChar sep cs = cs.splitOn sep := by
  induction cs with
  | nil => rfl
  | cons c cs ih =>
    obtain ⟨piece, rest, h⟩ := List.exists_cons_of_ne_nil (splitAtChar_ne_nil sep cs)
    rw [splitAtChar, List.splitOn_cons_eq_if_modifyHead, ← ih, h]
    by_cases hc : c = sep <;> simp [hc]

theorem splitAtChar_append (sep : Char) (as bs : List Char) :
    splitAtChar sep (as ++ sep :: bs) = splitAtChar sep as ++ splitAtChar sep bs := by
  simp only [splitAtChar_eq_splitOn, List.splitOn_append_cons_self]

theorem splitAtChar_of_notMem (h : sep ∉ cs) : splitAtChar sep cs = [cs] := by
  rw [splitAtChar_eq_splitOn, List.splitOn_eq_singleton h]

theorem splitAtChar_intercalate {pieces : List (List Char)} (hne : pieces ≠ []) (h : ∀ piece ∈ pieces, sep ∉ piece) :
    splitAtChar sep ([sep].intercalate pieces) = pieces := by
  rw [splitAtChar_eq_splitOn, List.splitOn_intercalate sep h hne]

/-- A text has no separator, or starts with a piece, a separator and a shorter text. -/
theorem split_induction (sep : Char) {P : List Char → Prop} (last : ∀ cs, sep ∉ cs → P cs)
    (cut : ∀ as bs, sep ∉ as → P bs → P (as ++ sep :: bs)) (cs : List Char) : P cs := by
  by_cases h : sep ∈ cs
  · obtain ⟨as, bs, rfl, has⟩ := List.eq_append_cons_of_mem h
    exact cut as bs has (split_induction sep last cut bs)
  · exact last cs h
termination_by cs.length
decreasing_by
  subst_vars
  simp only [List.length_append, List.length_cons]
  omega

theorem notMem_of_mem_splitAtChar (h : piece ∈ splitAtChar sep cs) : sep ∉ piece := by
  induction cs using split_induction sep with
  | last cs hcs => rw [splitAtChar_of_notMem hcs, List.mem_singleton] at h; exact h ▸ hcs
  | cut as bs has ih =>
    rw [splitAtChar_append, splitAtChar_of_notMem has] at h
    rcases List.mem_cons.1 h with rfl | h
    · exact has
    · exact ih h

theorem infix_of_mem_splitAtChar (h : piece ∈ splitAtChar sep cs) : piece <:+: cs := by
  induction cs using split_induction sep with
  | last cs hcs => rw [splitAtChar_of_notMem hcs, List.mem_singleton] at h; exact h ▸ List.infix_rfl
  | cut as bs has ih =>
    rw [splitAtChar_append, splitAtChar_of_notMem has] at h
    rcases List.mem_cons.1 h with rfl | h
    · exact (List.prefix_append ..).isInfix
    · exact (ih h).trans ((List.suffix_cons ..).trans (List.suffix_append ..)).isInfix

theorem infix_append_cons (hsep : sep ∉ needle) (h : needle <:+: as ++ sep :: bs) :
    needle <:+: as ∨ needle <:+: bs := by
  obtain ⟨s, t, e⟩ := h
  rw [List.append_assoc] at e
  rcases List.append_eq_append_iff.1 e with ⟨u, rfl, e₁⟩ | ⟨u, rfl, e₁⟩
  · rcases List.append_eq_append_iff.1 e₁ with ⟨v, rfl, -⟩ | ⟨v, rfl, e₂⟩
    · exact .inl ⟨s, v, by simp⟩
    · cases v with
      | nil => exact .inl ⟨s, [], by simp⟩
      | cons x v =>
        obtain ⟨rfl, -⟩ := List.cons.inj e₂
        simp at hsep
  · cases u with
    | nil =>
      cases needle with
      | nil => exact .inl (List.nil_infix)
      | cons x needle =>
        obtain ⟨rfl, -⟩ := List.cons.inj e₁
        simp at hsep
    | cons x u =>
      obtain ⟨-, rfl⟩ := List.cons.inj e₁
      exact .inr ⟨u, t, by simp⟩

/-- A run of characters without the separator stands within one piece. -/
theorem exists_piece_of_infix (hsep : sep ∉ needle) (h : needle <:+: cs) :
    ∃ piece ∈ splitAtChar sep cs, needle <:+: piece := by
  induction cs using split_induction sep with
  | last cs hcs => exact ⟨cs, by rw [splitAtChar_of_notMem hcs]; simp, h⟩
  | cut as bs has ih =>
    rw [splitAtChar_append, splitAtChar_of_notMem has]
    rcases infix_append_cons hsep h with h | h
    · exact ⟨as, List.mem_cons_self .., h⟩
    · obtain ⟨piece, hp, hn⟩ := ih h
      exact ⟨piece, List.mem_cons_of_mem _ hp, hn⟩

/-- The last piece is empty behind a separator, or where there is nothing to cut. -/
theorem getLast?_splitAtChar : (splitAtChar sep cs).getLast? = some [] ↔ cs = [] ∨ cs.getLast? = some sep := by
  induction cs using split_induction sep with
  | last cs hcs =>
    rw [splitAtChar_of_notMem hcs, List.getLast?_singleton, Option.some.injEq]
    exact ⟨.inl, Or.rec id fun h => absurd (List.mem_of_getLast? h) hcs⟩
  | cut as bs _ ih =>
    have hne := splitAtChar_ne_nil sep bs
    rw [splitAtChar_append, List.getLast?_append_of_ne_nil _ hne, ih, List.getLast?_append_of_ne_nil _ (by simp)]
    cases bs <;> simp

theorem length_splitAtChar (sep : Char) (cs : List Char) : (splitAtChar sep cs).length = cs.count sep + 1 := by
  induction cs using split_induction sep with
  | last cs hcs => rw [splitAtChar_of_notMem hcs, List.length_singleton, List.count_eq_zero.2 hcs]
  | cut as bs has ih =>
    rw [splitAtChar_append, splitAtChar_of_notMem has, List.length_append, ih, List.count_append,
      List.count_eq_zero.2 has, List.count_cons_self, List.length_singleton]
    omega

/-- What is counted are the lines without the empty one at the end. -/
theorem length_lines (s : String) : (lines s).length =
    countLines s + if s = "" ∨ s.toList.getLast? = some '\n' then 1 else 0 := by
  rw [lines, List.length_map, length_splitAtChar, countLines]
  cases hlast : s.toList.getLast? with
  | none =>
    have hs : s = "" := String.toList_eq_nil_iff.1 (List.getLast?_eq_none_iff.1 hlast)
    simp [hs]
  | some c =>
    have hs : s ≠ "" := fun h => by simp [h] at hlast
    by_cases hc : c = '\n' <;> simp [hs, hc]

/-- Lines that are written each with a newline behind it are read again. -/
theorem lines_joined {ls : List String} (hne : ls ≠ []) (h : ∀ l ∈ ls, '\n' ∉ l.toList) :
    lines ("\n".intercalate ls ++ "\n") = ls ++ [""] := by
  have hpieces : ∀ piece ∈ ls.map String.toList, '\n' ∉ piece := fun piece hpiece => by
    obtain ⟨l, hl, rfl⟩ := List.mem_map.1 hpiece
    exact h l hl
  have htext : ("\n".intercalate ls ++ "\n").toList = ['\n'].intercalate (ls.map String.toList) ++ '\n' :: [] := by
    rw [String.toList_append, String.toList_intercalate]
    rfl
  have hmap : ls.map (String.ofList ∘ String.toList) = ls := List.map_id'' (fun s => String.ofList_toList) _
  rw [lines, htext, splitAtChar_append, splitAtChar_intercalate (by simpa using hne) hpieces, List.map_append,
    List.map_map, hmap]
  rfl

theorem joined_concat {ls : List String} (hne : ls ≠ []) :
    "\n".intercalate (ls ++ [""]) = "\n".intercalate ls ++ "\n" := by
  induction ls with
  | nil => exact absurd rfl hne
  | cons l ls ih =>
    by_cases hls : ls = []
    · simp [hls, String.intercalate_cons_cons]
    · rw [List.cons_append, String.intercalate_cons_of_ne_nil (by simp), String.intercalate_cons_of_ne_nil hls, ih hls]
      simp only [String.append_assoc]

theorem toList_joined {ls : List String} (hne : ls ≠ []) :
    ("\n".intercalate ls ++ "\n").toList = ls.flatMap fun l => l.toList ++ ['\n'] := by
  rw [String.toList_append]
  induction ls with
  | nil => exact absurd rfl hne
  | cons l ls ih =>
    by_cases hls : ls = []
    · simp [hls]
    · rw [String.intercalate_cons_of_ne_nil hls, List.flatMap_cons, ← ih hls]
      simp

theorem joined_lines (s : String) : "\n".intercalate (lines s) = s := by
  rw [← String.toList_inj, String.toList_intercalate, lines, List.map_map]
  have hmap : (splitAtChar '\n' s.toList).map (String.toList ∘ String.ofList) = splitAtChar '\n' s.toList :=
    List.map_id'' (fun _ => String.toList_ofList) _
  rw [hmap]
  exact joined_split '\n' s.toList

end Split

section Unify

theorem unifyNewlines_of_notMem (h : '\r' ∉ cs) : unifyNewlines cs = cs := by
  induction cs using unifyNewlines.induct with
  | case1 => rfl
  | case2 cs ih => simp at h
  | case3 c cs hc ih =>
    obtain ⟨h1, h2⟩ := not_or.1 (List.mem_cons.not.1 h)
    rw [unifyNewlines, ih h2, if_neg (Ne.symm h1)]
    rintro cs' rfl rfl
    exact hc cs' rfl rfl

theorem notMem_unifyNewlines (cs : List Char) : '\r' ∉ unifyNewlines cs := by
  induction cs using unifyNewlines.induct with
  | case1 => exact List.not_mem_nil
  | case2 cs ih => rw [unifyNewlines]; simpa using ih
  | case3 c cs hc ih =>
    rw [unifyNewlines]
    · split <;> simp_all [eq_comm]
    · exact hc

theorem mem_unifyNewlines (hn : c ≠ '\n') (hr : c ≠ '\r') : c ∈ unifyNewlines cs ↔ c ∈ cs := by
  induction cs using unifyNewlines.induct with
  | case1 => exact Iff.rfl
  | case2 cs ih => simp [unifyNewlines, ih, hn, hr]
  | case3 x cs hx ih =>
    rw [unifyNewlines, List.mem_cons, List.mem_cons, ih]
    · split <;> simp_all
    · exact hx

/-- A newline after `as` starts a new line; it may be one line end with a carriage return before it. -/
theorem unifyNewlines_append_newline (as bs : List Char) :
    ∃ us, unifyNewlines (as ++ '\n' :: bs) = us ++ '\n' :: unifyNewlines bs ∧
      (unifyNewlines as = us ∨ unifyNewlines as = us ++ ['\n']) := by
  induction as using unifyNewlines.induct with
  | case1 => exact ⟨[], rfl, .inl rfl⟩
  | case2 cs ih =>
    obtain ⟨us, h, hu⟩ := ih
    refine ⟨'\n' :: us, by simp [unifyNewlines, h], ?_⟩
    rcases hu with hu | hu <;> simp [unifyNewlines, hu]
  | case3 c cs hc ih =>
    by_cases hlast : c = '\r' ∧ cs = []
    · obtain ⟨rfl, rfl⟩ := hlast
      exact ⟨[], rfl, .inr rfl⟩
    · obtain ⟨us, h, hu⟩ := ih
      have hc' : ∀ cs', c = '\r' → cs ++ '\n' :: bs = '\n' :: cs' → False := by
        intro cs' hr e
        cases cs with
        | nil => exact hlast ⟨hr, rfl⟩
        | cons x cs => exact hc cs hr (by rw [(List.cons.inj e).1])
      refine ⟨(if c = '\r' then '\n' else c) :: us, ?_, ?_⟩
      · rw [List.cons_append, unifyNewlines, h]
        · rfl
        · exact hc'
      · rw [unifyNewlines]
        · rcases hu with hu | hu <;> simp [hu]
        · exact hc

end Unify

/-- Whether something is left of a line without its outer blanks. -/
def isSolid (line : String) : Bool :=
  !(stripped line).isEmpty

/-- The lines of a text that are not blank. -/
def solid (cs : List Char) : List String :=
  ((splitAtChar '\n' cs).map String.ofList).filter isSolid

/-- The lines that are not blank when the text is read after it was written. -/
def readBack (cs : List Char) : List String :=
  solid (unifyNewlines cs)

theorem strip_eq_nil_iff : strip cs = [] ↔ ∀ c ∈ cs, isBlank c = true := by
  unfold strip dropEndWhile
  rw [List.reverse_eq_nil_iff, List.dropWhile_eq_nil_iff]
  simp only [List.mem_reverse]
  refine ⟨fun h => ?_, fun h c hc => h c ((List.dropWhile_sublist _).mem hc)⟩
  cases hd : cs.dropWhile isBlank with
  | nil => exact List.dropWhile_eq_nil_iff.1 hd
  | cons c rest =>
    have hc : isBlank c = true := h c (by rw [hd]; exact List.mem_cons_self ..)
    have hn := List.head_dropWhile_not isBlank (hd ▸ List.cons_ne_nil c rest)
    simp only [hd, List.head_cons, hc] at hn
    cases hn

theorem strip_isPrefix (cs : List Char) : strip cs <+: cs.dropWhile isBlank := by
  unfold strip dropEndWhile
  rw [← List.reverse_suffix, List.reverse_reverse]
  exact List.dropWhile_suffix _

theorem strip_sublist (cs : List Char) : (strip cs).Sublist cs :=
  (strip_isPrefix cs).sublist.trans (List.dropWhile_sublist _)

theorem isSolid_iff : isSolid s = true ↔ ∃ c ∈ s.toList, isBlank c = false := by
  unfold isSolid stripped
  rw [Bool.not_eq_true', Bool.eq_false_iff, ne_eq, String.isEmpty_iff, ← String.toList_eq_nil_iff,
    String.toList_ofList, strip_eq_nil_iff]
  simp

theorem isSolid_unifyNewlines (s : String) : isSolid (.ofList (unifyNewlines s.toList)) = isSolid s := by
  rw [Bool.eq_iff_iff, isSolid_iff, isSolid_iff, String.toList_ofList]
  refine exists_congr fun c => and_congr_left fun hblank => mem_unifyNewlines ?_ ?_ <;>
    exact fun h => by simp [h, isBlank] at hblank

@[simp] theorem solid_nil : solid [] = [] := by
  simp [solid, splitAtChar, isSolid, stripped, strip, dropEndWhile]

theorem solid_append_newline (as bs : List Char) : solid (as ++ '\n' :: bs) = solid as ++ solid bs := by
  simp only [solid, splitAtChar_append, List.map_append, List.filter_append]

theorem solid_of_notMem (h : '\n' ∉ s.toList) : solid s.toList = if isSolid s then [s] else [] := by
  simp only [solid, splitAtChar_of_notMem h, List.map_cons, List.map_nil, String.ofList_toList,
    List.filter_cons, List.filter_nil]

theorem isSolid_of_mem_solid (h : s ∈ solid cs) : isSolid s = true :=
  (List.mem_filter.1 h).2

theorem solid_sublist_lines (s : String) : (solid s.toList).Sublist (lines s) :=
  List.filter_sublist

theorem readBack_eq_solid (h : '\r' ∉ cs) : readBack cs = solid cs := by
  rw [readBack, unifyNewlines_of_notMem h]

@[simp] theorem readBack_nil : readBack [] = [] := by
  simp [readBack, unifyNewlines]

theorem readBack_append_newline (as bs : List Char) :
    readBack (as ++ '\n' :: bs) = readBack as ++ readBack bs := by
  obtain ⟨us, h, hu⟩ := unifyNewlines_append_newline as bs
  rw [readBack, h, solid_append_newline, readBack, readBack]
  rcases hu with hu | hu
  · rw [hu]
  · rw [hu, solid_append_newline, solid_nil, List.append_nil]

/-- The text that has `ls` as lines, each with a newline after it. -/
theorem readBack_joined (ls : List String) :
    readBack ("\n".intercalate ls ++ "\n").toList = ls.flatMap fun l => readBack l.toList := by
  rw [String.toList_append]
  induction ls with
  | nil => simp [readBack, unifyNewlines, solid, splitAtChar, isSolid, stripped, strip, dropEndWhile]
  | cons l ls ih =>
    cases ls with
    | nil => simp [show "\n".toList = ['\n'] from rfl, readBack_append_newline]
    | cons l' ls =>
      rw [String.intercalate_cons_cons, String.toList_append, String.toList_append, List.append_assoc,
        List.append_assoc, List.flatMap_cons, ← ih]
      exact readBack_append_newline _ _

end Scaffold.Text
