import Scaffold.Proofs.Name.Glued
import Scaffold.Proofs.Name.Plural
import Scaffold.Proofs.Run.Request

/-!
# Only the last word is pluralised

The plural of a word of letters is a word of letters again (`plural_letters`), and it joins its neighbour only if the
word did. So the plural spellings of a naming are made of the words of the model with the plural of the last one
(`pluralised`). A number is the exception: its plural is read as two words (`plural_number`, `words_many_number`), and
the plural of `User2` in kebab case is `user-2-s`.
-/

namespace Scaffold.Name

variable {c : Char} {cs w last : List Char} {init : List (List Char)} {word entity : String}

section Plural

theorem withCapitalOf_of_small {model : String} (h : ∀ c ∈ model.toList, c.isUpper = false) :
    withCapitalOf model word = word := by
  unfold withCapitalOf
  split
  · next c _ _ hfirst _ => rw [h c (List.mem_of_mem_head? hfirst), if_neg Bool.false_ne_true]
  · rfl

/-- A plural of small letters is made of small letters, and it is no single letter unless it is the word itself. -/
theorem plural_letters (ne : w ≠ []) (small : ∀ c ∈ w, c.isLower = true) :
    (plural (.ofList w)).toList ≠ [] ∧ (∀ c ∈ (plural (.ofList w)).toList, c.isLower = true) ∧
      ((plural (.ofList w)).toList = w ∨ 1 < (plural (.ofList w)).toList.length) := by
  have hirregular : ∀ a ∈ irregular, a.2.toList.all Char.isLower = true ∧ 1 < a.2.toList.length := by decide +kernel
  have hendings : ∀ tail ∈ ["es", "ies", "ves", "s"], tail.toList.all Char.isLower = true := by decide +kernel
  have hpos := List.length_pos_iff.2 ne
  rcases plural_cases (.ofList w) with ⟨hsame, -⟩ | ⟨many, hmem, hmany⟩ | ⟨stem, tail, htail, heq, hstem, hlong⟩
  · rw [hsame, String.toList_ofList]
    exact ⟨ne, small, .inl rfl⟩
  · have hcapital : withCapitalOf (.ofList w) many = many := by
      refine withCapitalOf_of_small fun c hc => ?_
      rw [String.toList_ofList] at hc
      simpa using Char.not_isUpper_of_isLower (small c hc)
    obtain ⟨hsmall, hlong⟩ := hirregular _ hmem
    rw [hmany, hcapital]
    exact ⟨List.length_pos_iff.1 (Nat.zero_lt_of_lt hlong), List.all_eq_true.1 hsmall, .inr hlong⟩
  · rw [String.toList_ofList] at hstem hlong
    have hlength : 1 < (plural (.ofList w)).toList.length := by
      rw [heq, String.toList_append, List.length_append]
      omega
    refine ⟨List.length_pos_iff.1 (by omega), fun c hc => ?_, .inr hlength⟩
    rw [heq, String.toList_append] at hc
    rcases List.mem_append.1 hc with hc | hc
    · exact small c (hstem.subset hc)
    · exact List.all_eq_true.1 (hendings tail htail) c hc

/-- The words of the tables. -/
def listed : List String :=
  standing ++ irregular.map Prod.fst

theorem plural_of_notMem (hword : word ≠ "") (h : lower word ∉ listed) : plural word = pluralByEnding word := by
  have hstanding : lower word ∉ standing := fun hmem => h (List.mem_append_left _ hmem)
  have hcount : (word.isEmpty || uncountable.contains (lower word)) = false := by
    have hnot : lower word ∉ uncountable := fun hmem => hstanding (List.mem_append_left _ hmem)
    simp [hword, hnot]
  have hmany : irregularPlural? (lower word) = none := by
    refine List.lookup_eq_none_iff.2 fun a ha => ?_
    have hne : lower word ≠ a.1 := fun heq => h (List.mem_append_right _ (heq ▸ List.mem_map_of_mem ha))
    simpa using hne
  have hone : irregularSingular? (lower word) = none := by
    refine List.lookup_eq_none_iff.2 fun b hb => ?_
    obtain ⟨a, ha, rfl⟩ := List.mem_map.1 hb
    have hne : lower word ≠ a.2 := fun heq => hstanding (List.mem_append_right _ (heq ▸ List.mem_map_of_mem ha))
    simpa using hne
  simp only [plural, hcount, hmany, hone, Option.isSome_none, Bool.false_eq_true, ↓reduceIte]

theorem last_of_endsWith {tail : String} (h : Text.endsWith word tail = true) (hc : tail.toList.getLast? = some c) :
    word.toList.getLast? = some c := by
  obtain ⟨init, hinit⟩ := List.isSuffixOf_iff_suffix.1 h
  rw [← hinit, List.getLast?_append, hc, Option.some_or]

/-- A word has none of the endings whose last character is of another kind than its own. -/
theorem endsWith_of_last {p : Char → Bool} {tail : String} (hword : ∀ c ∈ word.toList.getLast?, p c = true)
    (htail : tail.toList.getLast?.any (!p ·) = true) : Text.endsWith word tail = false := by
  refine Bool.eq_false_iff.2 fun h => ?_
  obtain ⟨c, hc, hother⟩ := (Option.any_eq_true _ _).1 htail
  rw [hword c (last_of_endsWith h hc)] at hother
  cases hother

theorem endsWith_number (digits : Numeric w) {tail : String}
    (htail : tail.toList.getLast?.any (!·.isDigit) = true) : Text.endsWith (.ofList w) tail = false := by
  refine endsWith_of_last (fun c hc => digits c ?_) htail
  rw [String.toList_ofList] at hc
  exact List.mem_of_getLast? hc

/-- A number gets an `s`: no word of the tables and no ending with a plural of its own is a number. -/
theorem plural_number (ne : w ≠ []) (digits : Numeric w) : plural (.ofList w) = .ofList w ++ "s" := by
  have hlower : lower (.ofList w) = .ofList w := by
    rw [lower, String.toList_ofList, (Plain.number ne digits).map_toLower]
  have hlisted : lower (.ofList w) ∉ listed := by
    have hletter : ∀ s ∈ listed, s.toList.getLast?.any (!·.isDigit) = true := by decide +kernel
    rw [hlower]
    intro hmem
    have hself := endsWith_number digits (hletter _ hmem)
    rw [Text.endsWith, List.isSuffixOf_iff_suffix.2 List.suffix_rfl] at hself
    cases hself
  have hending : ∀ tail ∈ ["sh", "ch", "x", "z", "ss", "us", "s", "y", "fe", "f", "o"],
      Text.endsWith (.ofList w) tail = false := by
    have hletter : ∀ tail ∈ ["sh", "ch", "x", "z", "ss", "us", "s", "y", "fe", "f", "o"],
      tail.toList.getLast?.any (!·.isDigit) = true := by decide
    exact fun tail htail => endsWith_number digits (hletter tail htail)
  have hword : String.ofList w ≠ "" := by simpa using ne
  rw [plural_of_notMem hword hlisted, pluralByEnding, hlower]
  simp only [List.forall_mem_cons] at hending
  simp [hending]

end Plural

section Pluralised

theorem glued_append (us ws : List (List Char)) : glued (us ++ ws) = glued us ++ glued ws :=
  List.flatMap_append

theorem glued_singleton (w : List Char) : glued [w] = capitalise w :=
  List.flatMap_singleton ..

theorem capitalise_append {v : List Char} (hv : v ≠ []) (w : List Char) :
    capitalise (v ++ w) = capitalise v ++ w.map Char.toLower := by
  cases v with
  | nil => exact absurd rfl hv
  | cons c v => rw [List.cons_append, capitalise, capitalise, List.map_append, List.cons_append]

theorem toList_pluralOfWords (init : List (List Char)) (last : List Char) :
    (Naming.pluralOfWords (init ++ [last])).toList = glued (init ++ [(plural (.ofList last)).toList]) := by
  rw [Naming.pluralOfWords, List.getLast?_concat, List.dropLast_concat, String.toList_ofList]
  rfl

/-- The plural of a last word of letters joins no word in front of it. -/
theorem words_many_letters (hplain : ∀ w ∈ init ++ [last], Plain w)
    (hapart : (init ++ [last]).IsChain fun v w => ¬ Joins v w) (small : ∀ c ∈ last, c.isLower = true) :
    words (Naming.pluralOfWords (init ++ [last])).toList = init ++ [(plural (.ofList last)).toList] := by
  have hlast : last ≠ [] := (hplain last (by simp)).ne_nil
  obtain ⟨hne, hsmall, hlong⟩ := plural_letters hlast small
  obtain ⟨hinit, -, hmeet⟩ := List.isChain_append.1 hapart
  rw [toList_pluralOfWords]
  refine words_glued (fun w hw => ?_) (List.isChain_append.2 ⟨hinit, .singleton _, ?_⟩)
  · rcases List.mem_append.1 hw with hw | hw
    · exact hplain w (List.mem_append_left _ hw)
    · rw [List.mem_singleton.1 hw]
      exact .letters hne hsmall
  · intro v hv w hw hjoins
    obtain rfl : (plural (.ofList last)).toList = w := by simpa using hw
    refine hmeet v hv last (by simp) ?_
    rcases hjoins with ⟨hfirst, hsecond⟩ | ⟨-, hnumber⟩
    · rcases hlong with heq | hlong
      · exact .inl ⟨hfirst, heq ▸ hsecond⟩
      · obtain ⟨c, -, hc⟩ := hsecond
        simp [hc] at hlong
    · obtain ⟨c, hc⟩ := List.exists_mem_of_ne_nil _ hne
      have hletter := isDigit_of_isAlpha (isAlpha_of_isLower (hsmall c hc))
      exact absurd (hletter.symm.trans (hnumber c hc)) Bool.false_ne_true

/-- The `s` behind a number is read as a word of its own. -/
theorem words_many_number (hplain : ∀ w ∈ init ++ [last], Plain w)
    (hapart : (init ++ [last]).IsChain fun v w => ¬ Joins v w) (digits : Numeric last) :
    words (Naming.pluralOfWords (init ++ [last])).toList = init ++ [last, ['s']] := by
  have hlast : last ≠ [] := (hplain last (by simp)).ne_nil
  have hglued : glued (init ++ [last ++ ['s']]) = glued (init ++ [last]) ++ ['s'] := by
    rw [glued_append, glued_append, List.append_assoc, glued_singleton, glued_singleton, capitalise_append hlast]
    rfl
  have hend : ∀ a ∈ (glued (init ++ [last])).getLast?, a.isDigit = true := by
    intro a ha
    obtain ⟨front, d, rfl⟩ := (List.eq_nil_or_concat' last).resolve_left hlast
    rw [glued_append, glued_singleton, capitalise_number digits, ← List.append_assoc, List.getLast?_concat] at ha
    exact digits a (by simp [Option.mem_some_iff.1 ha])
  rw [toList_pluralOfWords, plural_number hlast digits, String.toList_append, String.toList_ofList,
    show "s".toList = ['s'] from rfl, hglued, words_append, words_glued hplain hapart]
  · rw [List.append_assoc, show words ['s'] = [['s']] by decide]
    rfl
  · intro a ha c _ hupper
    rw [(case_of_isDigit (hend a ha)).1] at hupper
    cases hupper
  · intro a ha
    simp [goesOn, wordCut, hend a ha]

theorem words_ne_nil_of_start (hcs : entity.toList = c :: cs) (hc : c.isAlpha = true) : words entity.toList ≠ [] :=
  words_ne_nil (hcs ▸ List.mem_cons_self ..) (Bool.or_eq_true_iff.2 (.inl hc))

theorem exists_derive_words (h : words entity.toList ≠ []) : ∃ n init last, Naming.derive? entity = some n ∧
    n.one = .ofPascal (pascal entity) ∧ words (pascal entity).toList = init ++ [last] ∧
    n.many = .ofPascal (Naming.pluralOfWords (init ++ [last])) ∧
    (∀ w ∈ init ++ [last], Plain w) ∧ (init ++ [last]).IsChain fun v w => ¬ Joins v w := by
  obtain ⟨init, last, hws⟩ :=
    (List.eq_nil_or_concat' (words (pascal entity).toList)).resolve_left (words_pascal_ne_nil h)
  refine ⟨_, init, last, derive?_of_words h, rfl, hws, by rw [hws], fun w hw => ?_, ?_⟩
  · rw [← hws] at hw
    exact plain_of_mem_words hw
  · rw [← hws, toList_pascal]
    exact isChain_words_glued fun w hw => plain_of_mem_words hw

end Pluralised

end Scaffold.Name

namespace Scaffold.Naming
open Name

/-- The plural spellings are those of the words `ws`. -/
structure Many (n : Naming) (ws : List (List Char)) : Prop where
  words : words n.many.pascal.toList = ws
  kebab : n.many.kebab = .ofList (['-'].intercalate ws)
  title : n.many.title = .ofList ([' '].intercalate (ws.map capitalise))
  camel : n.many.camel = .ofList (ws.headD [] ++ ws.tail.flatMap capitalise)

theorem many_of_words {n : Naming} {name : String} {ws : List (List Char)} (h : n.many = .ofPascal name)
    (hws : Name.words name.toList = ws) : n.Many ws := by
  have hcamel : Name.camel name = .ofList (ws.headD [] ++ ws.tail.flatMap capitalise) := by
    rw [Name.camel, hws]
    cases ws <;> rfl
  subst hws
  rw [← Spellings.ofPascal_camel, ← h] at hcamel
  exact ⟨by rw [h, Spellings.ofPascal_pascal], by rw [h, Spellings.ofPascal_kebab, Name.kebab],
    by rw [h, Spellings.ofPascal_title, Name.title], hcamel⟩

/-- In every plural spelling the last word of the model is in the plural and the others are as they were; if it is a
number, its plural is the number and an `s` behind it, as a word of its own. -/
theorem pluralised {entity : String} (h : (Review.ofEntity (some entity)).hasErrors = false) :
    ∃ n init last, derive? (Text.stripped entity) = some n ∧ Name.words n.one.pascal.toList = init ++ [last] ∧
      (¬ Numeric last → n.Many (init ++ [(plural (.ofList last)).toList])) ∧
      (Numeric last → n.Many (init ++ [last, ['s']])) := by
  obtain ⟨c, cs, hcs, hletter⟩ := Review.starts_of_matchesLine (Review.matchesLine_of_ofEntity h)
  obtain ⟨n, init, last, hn, hone, hws, hmany, hplain, hapart⟩ :=
    Name.exists_derive_words (words_ne_nil_of_start hcs hletter)
  refine ⟨n, init, last, hn, by rw [hone, Spellings.ofPascal_pascal, hws], fun hnot => ?_, fun digits => ?_⟩
  · cases hplain last (by simp) with
    | letters _ small => exact many_of_words hmany (words_many_letters hplain hapart small)
    | number _ digits => exact absurd digits hnot
  · exact many_of_words hmany (words_many_number hplain hapart digits)

theorem pluralised_person : (Review.ofEntity (some "SalesPerson")).hasErrors = false ∧
    ∃ n, derive? (Text.stripped "SalesPerson") = some n ∧ n.Many ["sales".toList, "people".toList] := by
  have haccepted : (Review.ofEntity (some "SalesPerson")).hasErrors = false := by decide +kernel
  refine ⟨haccepted, ?_⟩
  obtain ⟨n, init, last, hn, hws, hletters, -⟩ := pluralised haccepted
  have hmodel : (derive? (Text.stripped "SalesPerson")).map (fun n => Name.words n.one.pascal.toList) =
      some (["sales".toList] ++ ["person".toList]) := by decide +kernel
  rw [hn, Option.map_some, hws] at hmodel
  obtain ⟨rfl, hlast⟩ := List.append_inj' (Option.some.inj hmodel) rfl
  obtain rfl : last = "person".toList := List.head_eq_of_cons_eq hlast
  have hnot : ¬ Numeric "person".toList := fun h => absurd (h 'p' (by decide)) (by decide)
  exact ⟨n, hn, hletters hnot⟩

/-- The plural of `User2` has a word more than the model, and no `2s`. -/
theorem pluralised_user2 : (Review.ofEntity (some "User2")).hasErrors = false ∧
    ∃ n, derive? (Text.stripped "User2") = some n ∧
      Name.words n.one.pascal.toList = ["user".toList] ++ ["2".toList] ∧
      n.many.kebab = "user-2-s" ∧ ¬ n.Many (["user".toList] ++ [(plural "2").toList]) := by
  have hderived : ∃ n, derive? (Text.stripped "User2") = some n ∧
      Name.words n.one.pascal.toList = ["user".toList] ++ ["2".toList] ∧ n.many.kebab = "user-2-s" :=
    ⟨{ one := .ofPascal "User2", many := .ofPascal "User2s" }, by decide +kernel⟩
  obtain ⟨n, hn, hws, hkebab⟩ := hderived
  refine ⟨by decide +kernel, n, hn, hws, hkebab, fun hmany => ?_⟩
  have hwrong := hmany.kebab
  rw [hkebab] at hwrong
  revert hwrong
  decide +kernel

end Scaffold.Naming
