import Mathlib.Data.List.DropRight
import Scaffold.Proofs.Review.Names
import Scaffold.Proofs.Text.ReadBack

/-!
# What a PHP file declares and imports

A reader of class files, line by line. The imports and the class stand before the first brace (`imports`, `declared`),
and a method on a line that starts with its keywords (`parameters?`). Names of classes count in lower case.
-/

namespace Scaffold.Php

/-- What stands between blanks and semicolons. -/
def words (cs : List Char) : List (List Char) :=
  (cs.splitOnP fun c => Text.isBlank c || c == ';').filter (· ≠ [])

/-- The part of a qualified name behind the last backslash. -/
def shortName (cs : List Char) : List Char :=
  cs.rtakeWhile (· ≠ '\\')

/-- The short name that an import brings in. -/
def imported? (line : List Char) : Option (List Char) :=
  match words line with
  | [keyword, name] => if keyword = "use".toList then some (shortName name) else none
  | [keyword, _, _, other] => if keyword = "use".toList then some other else none
  | _ => none

/-- The name of the class or interface that a line declares. -/
def declared? (line : List Char) : Option (List Char) :=
  match (words line).dropWhile (["abstract".toList, "final".toList].contains ·) with
  | keyword :: name :: _ => if ["class".toList, "interface".toList].contains keyword then some name else none
  | _ => none

/-- The lines before the first brace. -/
def headLines (text : String) : List (List Char) :=
  Text.splitAtChar '\n' (text.toList.takeWhile (· ≠ '{'))

def imports (text : String) : List (List Char) :=
  (headLines text).filterMap imported?

def declared (text : String) : List (List Char) :=
  (headLines text).filterMap declared?

/-- No two classes of the file have one short name. -/
def Apart (text : String) : Prop :=
  ((imports text ++ declared text).map (·.map Char.toLower)).Nodup

instance (text : String) : Decidable (Apart text) :=
  inferInstanceAs (Decidable (List.Nodup _))

/-- The name of the variable in a parameter. -/
def parameterName? (parameter : List Char) : Option (List Char) :=
  match parameter.dropWhile (· ≠ '$') with
  | [] => none
  | _ :: name => some (name.takeWhile Review.isNameRest)

/-- The name and the parameters of the public method that a line declares. -/
def method? (line : List Char) : Option (List Char × List (List Char)) :=
  let keywords := "public function ".toList
  let line := line.dropWhile Text.isBlank
  if keywords <+: line then
    match (line.drop keywords.length).span (· ≠ '(') with
    | (name, parameters) =>
      some (name, (Text.splitAtChar ',' (parameters.takeWhile (· ≠ ')'))).filterMap parameterName?)
  else none

/-- The public methods with their parameters. -/
def methods (cs : List Char) : List (List Char × List (List Char)) :=
  (Text.splitAtChar '\n' cs).filterMap method?

/-- The parameters of the last method of a name. -/
def parameters? (text : String) (name : String) : Option (List (List Char)) :=
  (methods text.toList).reverse.lookup name.toList

variable {c : Char} {cs ds word : List Char} {ws : List (List Char)}

section Words

/-- A word, without what parts words. -/
def IsWord (cs : List Char) : Prop :=
  cs ≠ [] ∧ ∀ c ∈ cs, Text.isBlank c = false ∧ c ≠ ';'

-- The characters of the word are tried, not all there are.
instance (cs : List Char) : Decidable (IsWord cs) :=
  @instDecidableAnd _ _ _ (List.decidableBAll _ cs)

theorem words_append_cons (h : Text.isBlank c = true ∨ c = ';') : words (cs ++ c :: ds) = words cs ++ words ds := by
  rw [words, List.splitOnP_append_cons _ _ (by simpa using h), List.filter_append]
  rfl

theorem words_nil : words [] = [] := rfl

theorem words_cons (h : Text.isBlank c = true ∨ c = ';') : words (c :: cs) = words cs := by
  rw [← List.nil_append (c :: cs), words_append_cons h, words_nil, List.nil_append]

theorem IsWord.words (h : IsWord cs) : Php.words cs = [cs] := by
  have hnone : ∀ c ∈ cs, (Text.isBlank c || c == ';') = false := fun c hc => by
    simpa using h.2 c hc
  rw [Php.words, List.splitOnP_eq_singleton hnone, List.filter_singleton]
  simp [h.1]

/-- What is not blank starts a word. -/
theorem IsWord.words_append_cons (h : IsWord cs) (hc : Text.isBlank c = true ∨ c = ';') :
    Php.words (cs ++ c :: ds) = cs :: Php.words ds := by
  rw [Php.words_append_cons hc, h.words, List.singleton_append]

/-- Letters, digits and underscores part no words. -/
theorem isBlank_of_nameRest (h : Review.isNameRest c = true) : Text.isBlank c = false := by
  have hbounds : 48 ≤ c.toNat ∧ c.toNat ≤ 122 := by
    rcases Review.isNameRest_iff.1 h with (⟨hlow, hhigh⟩ | ⟨hlow, hhigh⟩ | rfl) | ⟨hlow, hhigh⟩
    · exact ⟨Nat.le_trans (by decide) hlow, Nat.le_trans hhigh (by decide)⟩
    · exact ⟨Nat.le_trans (by decide) hlow, Nat.le_trans hhigh (by decide)⟩
    · decide
    · exact ⟨hlow, Nat.le_trans hhigh (by decide)⟩
  simp only [Text.isBlank, Bool.or_eq_false_iff, Bool.and_eq_false_iff, decide_eq_false_iff_not, beq_eq_false_iff_ne]
  omega

theorem isWord_of_name (hne : cs ≠ []) (h : ∀ c ∈ cs, c = '\\' ∨ Review.isNameRest c = true) : IsWord cs := by
  refine ⟨hne, fun c hc => ?_⟩
  rcases h c hc with rfl | hrest
  · decide
  · exact ⟨isBlank_of_nameRest hrest, by rintro rfl; cases hrest⟩

end Words

section Head

theorem shortName_append_cons (h : '\\' ∉ ds) : shortName (cs ++ '\\' :: ds) = ds := by
  have hall : ∀ d ∈ ds.reverse, (decide (d ≠ '\\')) = true := fun d hd => by
    simpa using fun heq : d = '\\' => h (heq ▸ List.mem_reverse.1 hd)
  rw [shortName, List.rtakeWhile, List.reverse_append, List.reverse_cons, List.append_assoc,
    List.takeWhile_append_of_pos hall, List.singleton_append, List.takeWhile_cons_of_neg (by simp), List.append_nil,
    List.reverse_reverse]

/-- The short name stands behind all levels. -/
theorem shortName_flatMap (levels : List String) (h : '\\' ∉ ds) :
    shortName (levels.flatMap (fun level => level.toList ++ ['\\']) ++ ds) = ds := by
  rcases levels.eq_nil_or_concat with rfl | ⟨init, last, rfl⟩
  · have hall : ∀ d ∈ ds, decide (d ≠ '\\') = true := fun d hd => by
      simpa using ne_of_mem_of_not_mem hd h
    exact List.rtakeWhile_eq_self_iff.2 hall
  · rw [List.concat_eq_append, List.flatMap_append, List.flatMap_singleton, List.append_assoc, List.append_assoc,
      List.singleton_append, ← List.append_assoc, shortName_append_cons h]

/-- A qualified name is one word, and its last part is the short name. -/
theorem isWord_qualified (hcs : ∀ c ∈ cs, c = '\\' ∨ Review.isNameRest c = true)
    (hds : ∀ d ∈ ds, Review.isNameRest d = true) :
    IsWord (cs ++ '\\' :: ds) ∧ shortName (cs ++ '\\' :: ds) = ds := by
  refine ⟨isWord_of_name (by simp) fun d hd => ?_, shortName_append_cons fun hd => by cases hds _ hd⟩
  rcases List.mem_append.1 hd with hd | hd
  · exact hcs d hd
  · exact (List.mem_cons.1 hd).imp_right (hds d)

theorem isWord_levels {levels : List String} (hne : ds ≠ [])
    (hlevels : ∀ level ∈ levels, ∀ d ∈ level.toList, Review.isNameRest d = true)
    (hds : ∀ d ∈ ds, Review.isNameRest d = true) :
    IsWord (levels.flatMap (fun level => level.toList ++ ['\\']) ++ ds) ∧
      shortName (levels.flatMap (fun level => level.toList ++ ['\\']) ++ ds) = ds := by
  refine ⟨isWord_of_name (by simp [hne]) fun d hd => ?_, shortName_flatMap levels fun hd => by cases hds _ hd⟩
  rcases List.mem_append.1 hd with hd | hd
  · obtain ⟨level, hlevel, hd⟩ := List.mem_flatMap.1 hd
    rcases List.mem_append.1 hd with hd | hd
    · exact .inr (hlevels level hlevel d hd)
    · exact .inl (List.mem_singleton.1 hd)
  · exact .inr (hds d hd)

theorem imported?_of_head (h : (words cs).head? = some word) (hword : word ≠ "use".toList) : imported? cs = none := by
  cases hws : words cs with
  | nil => rw [imported?, hws]
  | cons w ws =>
    rw [hws, List.head?_cons, Option.some.injEq] at h
    subst h
    unfold imported?
    rw [hws]
    split
    · next heq => cases heq; rw [if_neg hword]
    · next heq => cases heq; rw [if_neg hword]
    · rfl

theorem declared?_of_head (h : (words cs).head? = some word)
    (hword : word ∉ ["abstract".toList, "final".toList, "class".toList, "interface".toList]) : declared? cs = none := by
  cases hws : words cs with
  | nil => rw [declared?, hws]; rfl
  | cons w ws =>
    rw [hws, List.head?_cons, Option.some.injEq] at h
    subst h
    have hstays : (w :: ws).dropWhile (["abstract".toList, "final".toList].contains ·) = w :: ws :=
      List.dropWhile_cons_of_neg (by simp_all)
    rw [declared?, hws, hstays]
    cases ws with
    | nil => rfl
    | cons v ws =>
      refine if_neg ?_
      simp_all

/-- A line that starts with another word neither imports nor declares. -/
theorem silent_of_head (word : List Char) (h : (words cs).head? = some word)
    (hword : word ∉ ["use".toList, "abstract".toList, "final".toList, "class".toList, "interface".toList]) :
    imported? cs = none ∧ declared? cs = none := by
  obtain ⟨huse, hrest⟩ := List.ne_and_not_mem_of_not_mem_cons hword
  exact ⟨imported?_of_head h huse, declared?_of_head h hrest⟩

end Head

section Lines

/-- A line with one import. -/
theorem imported?_use (h : IsWord cs) : imported? ("use ".toList ++ cs ++ [';']) = some (shortName cs) ∧
    declared? ("use ".toList ++ cs ++ [';']) = none := by
  have hwords : words ("use ".toList ++ cs ++ [';']) = ["use".toList, cs] := by
    rw [show "use ".toList = "use".toList ++ ' ' :: [] from rfl, List.append_assoc, List.append_assoc, List.cons_append,
      IsWord.words_append_cons (by decide +kernel) (by decide), List.nil_append, h.words_append_cons (by decide)]
    rfl
  refine ⟨?_, declared?_of_head (by rw [hwords]; rfl) (by decide)⟩
  rw [imported?, hwords]
  exact if_pos rfl

theorem IsWord.words_append (h : IsWord cs) (hds : ds = [] ∨ ∃ es, ds = ' ' :: es) :
    Php.words (cs ++ ds) = cs :: Php.words ds := by
  rcases hds with rfl | ⟨es, rfl⟩
  · rw [List.append_nil, h.words, words_nil]
  · rw [h.words_append_cons (by decide), words_cons (by decide)]

/-- How the line of a class starts. -/
def classKeywords : List String :=
  ["class ", "final class ", "interface "]

/-- The line of a class, with its parents. -/
theorem declared?_class {keyword : String} (hkeyword : keyword ∈ classKeywords) (h : IsWord cs)
    (hds : ds = [] ∨ ∃ es, ds = ' ' :: es) :
    imported? (keyword.toList ++ cs ++ ds) = none ∧ declared? (keyword.toList ++ cs ++ ds) = some cs := by
  have hwords : ∀ w, IsWord w → words (w ++ ' ' :: (cs ++ ds)) = w :: cs :: words ds := fun w hw => by
    rw [hw.words_append_cons (by decide), h.words_append hds]
  have hclass := hwords "class".toList (by decide +kernel)
  have hinterface := hwords "interface".toList (by decide +kernel)
  have hfinal : words ("final class ".toList ++ cs ++ ds) = "final".toList :: "class".toList :: cs :: words ds := by
    rw [← hclass, show "final class ".toList = "final".toList ++ ' ' :: ("class".toList ++ [' ']) from rfl,
      List.append_assoc, List.append_assoc, List.cons_append, IsWord.words_append_cons (by decide +kernel) (by decide),
      List.append_assoc, List.singleton_append]
  simp only [classKeywords, List.mem_cons, List.not_mem_nil, or_false] at hkeyword
  rcases hkeyword with rfl | rfl | rfl
  · rw [show "class ".toList = "class".toList ++ [' '] from rfl, List.append_assoc, List.append_assoc,
      List.singleton_append]
    exact ⟨imported?_of_head (by rw [hclass]; rfl) (by decide), by rw [declared?, hclass]; rfl⟩
  · exact ⟨imported?_of_head (by rw [hfinal]; rfl) (by decide), by rw [declared?, hfinal]; rfl⟩
  · rw [show "interface ".toList = "interface".toList ++ [' '] from rfl, List.append_assoc, List.append_assoc,
      List.singleton_append]
    exact ⟨imported?_of_head (by rw [hinterface]; rfl) (by decide), by rw [declared?, hinterface]; rfl⟩

end Lines

section Methods

theorem methods_append_newline (cs ds : List Char) : methods (cs ++ '\n' :: ds) = methods cs ++ methods ds := by
  rw [methods, Text.splitAtChar_append, List.filterMap_append]
  rfl

theorem methods_intercalate (ls : List (List Char)) : methods (['\n'].intercalate ls) = ls.flatMap methods := by
  induction ls with
  | nil => rfl
  | cons l ls ih =>
    cases ls with
    | nil => simp
    | cons l' ls =>
      rw [List.intercalate_cons_cons, List.append_assoc, List.singleton_append, methods_append_newline, ih]
      rfl

theorem methods_of_notMem (h : '\n' ∉ cs) : methods cs = (method? cs).toList := by
  rw [methods, Text.splitAtChar_of_notMem h, List.filterMap_cons, List.filterMap_nil]
  cases method? cs <;> rfl

theorem method?_of_head (h : (cs.dropWhile Text.isBlank).head? = some c) (hc : c ≠ 'p') : method? cs = none := by
  obtain ⟨rest, hrest⟩ := List.head?_eq_some_iff.1 h
  refine if_neg fun hlead => hc ?_
  rw [hrest] at hlead
  exact (List.cons_prefix_cons.1 hlead).1.symm

/-- The line of a public method. -/
theorem method?_declaration {name parameters : List Char} (hname : '(' ∉ name) (hparameters : ')' ∉ parameters)
    (ds : List Char) : method? ("    public function ".toList ++ (name ++ '(' :: (parameters ++ ')' :: ds))) =
      some (name, (Text.splitAtChar ',' ('(' :: parameters)).filterMap parameterName?) := by
  have hbehind : (name ++ '(' :: (parameters ++ ')' :: ds)).span (· ≠ '(') =
      (name, '(' :: (parameters ++ ')' :: ds)) := by
    have hall : ∀ c ∈ name, decide (c ≠ '(') = true := fun c hc => by
      simpa using ne_of_mem_of_not_mem hc hname
    rw [List.span_eq_takeWhile_dropWhile, List.takeWhile_append_of_pos hall, List.dropWhile_append_of_pos hall]
    simp
  have hinside : ('(' :: (parameters ++ ')' :: ds)).takeWhile (· ≠ ')') = '(' :: parameters := by
    rw [← List.cons_append, List.takeWhile_append_of_pos, List.takeWhile_cons_of_neg (by simp), List.append_nil]
    intro c hc
    rcases List.mem_cons.1 hc with rfl | hc
    · decide
    · simpa using ne_of_mem_of_not_mem hc hparameters
  have hline : ("    public function ".toList ++ (name ++ '(' :: (parameters ++ ')' :: ds))).dropWhile Text.isBlank =
      "public function ".toList ++ (name ++ '(' :: (parameters ++ ')' :: ds)) := rfl
  rw [method?]
  simp only [hline, List.prefix_append, ↓reduceIte, List.drop_left]
  rw [hbehind]
  simp only [hinside]

theorem parameterName?_append {type name : List Char} (htype : '$' ∉ type)
    (hname : ∀ c ∈ name, Review.isNameRest c = true) : parameterName? (type ++ '$' :: name) = some name := by
  rw [parameterName?, List.dropWhile_append_of_pos (by simpa using fun c hc => ne_of_mem_of_not_mem hc htype),
    List.dropWhile_cons_of_neg (by simp)]
  exact congrArg some (List.takeWhile_eq_self_iff.2 hname)

end Methods

end Scaffold.Php
