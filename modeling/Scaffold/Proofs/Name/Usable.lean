import Scaffold.Proofs.Name.LastWord

/-!
# Names that the generated code can use

An entity is accepted if it starts with a letter, holds nothing but letters, digits and underscores, and gives no
word of PHP. From each such entity names are derived, and every one of them has the form that its use asks for
(`usable_of_accepted`). All depends on the first letter: the words of a text that starts with a letter start with
that letter, and so does every spelling that is made from them.
-/

namespace Scaffold.Name

variable {c : Char} {cs w : List Char} {us ws : List (List Char)} {s : String}

/-- A first character of some kind, and then letters and digits. -/
def IsSymbol (first : Char → Bool) (s : String) : Prop :=
  ∃ c cs, s.toList = c :: cs ∧ first c = true ∧ ∀ d ∈ cs, d.isAlphanum = true

/-- Segments of small letters and digits with one `sep` between each two, and a letter to start with. -/
structure IsSlug (sep : Char) (s : String) : Prop where
  segments : ∃ gs : List (List Char), s.toList = [sep].intercalate gs ∧
    ∀ g ∈ gs, g ≠ [] ∧ ∀ c ∈ g, c.isLower = true ∨ c.isDigit = true
  start : ∃ c cs, s.toList = c :: cs ∧ c.isLower = true

theorem intercalate_cons (sep c : Char) (w : List Char) (ws : List (List Char)) :
    ∃ cs, [sep].intercalate ((c :: w) :: ws) = c :: cs := by
  cases ws with
  | nil => exact ⟨w, by simp⟩
  | cons w' ws => exact ⟨w ++ [sep] ++ [sep].intercalate (w' :: ws), by rw [List.intercalate_cons_cons]; rfl⟩

theorem isSymbol_glued (hletters : ∀ u ∈ (c :: w) :: ws, ∀ d ∈ u, d.isAlphanum = true) (hc : c.isAlpha = true) :
    IsSymbol Char.isUpper (.ofList (glued ((c :: w) :: ws))) := by
  refine ⟨c.toUpper, w.map Char.toLower ++ glued ws, String.toList_ofList, by simpa using hc, fun d hd => ?_⟩
  have hmem : d ∈ glued ((c :: w) :: ws) := List.mem_cons_of_mem _ hd
  obtain ⟨u, hu, hd⟩ := List.mem_flatMap.1 hmem
  exact isAlphanum_of_mem_capitalise (hletters u hu) hd

section Start
variable (hs : s.toList = c :: cs) (hc : c.isAlpha = true)
include hs hc

theorem exists_words_of_start : ∃ w ws, words s.toList = (c.toLower :: w) :: ws := by
  rw [hs]
  exact exists_words_cons cs (Bool.or_eq_true_iff.2 (.inl hc))

theorem isSymbol_pascal : IsSymbol Char.isUpper (pascal s) := by
  obtain ⟨w, ws, hws⟩ := exists_words_of_start hs hc
  have hletters : ∀ u ∈ (c.toLower :: w) :: ws, ∀ d ∈ u, d.isAlphanum = true :=
    fun u hu d hd => isAlphanum_of_mem_words (hws ▸ hu) hd
  have hsymbol := isSymbol_glued hletters (by simpa using hc)
  rwa [← hws] at hsymbol

theorem isSymbol_camel : IsSymbol Char.isLower (camel s) := by
  obtain ⟨w, ws, hws⟩ := exists_words_of_start hs hc
  have hmem : ∀ u ∈ (c.toLower :: w) :: ws, ∀ d ∈ u, d.isAlphanum = true :=
    fun u hu d hd => isAlphanum_of_mem_words (hws ▸ hu) hd
  refine ⟨c.toLower, w ++ ws.flatMap capitalise, ?_, by simpa using hc, fun d hd => ?_⟩
  · rw [camel, hws]
    exact String.toList_ofList
  · rcases List.mem_append.1 hd with hd | hd
    · exact hmem _ (List.mem_cons_self ..) d (List.mem_cons_of_mem _ hd)
    · obtain ⟨u, hu, hd⟩ := List.mem_flatMap.1 hd
      exact isAlphanum_of_mem_capitalise (hmem u (List.mem_cons_of_mem _ hu)) hd

theorem isSlug_kebab : IsSlug '-' (kebab s) := by
  obtain ⟨w, ws, hws⟩ := exists_words_of_start hs hc
  obtain ⟨cs', hstart⟩ := intercalate_cons '-' c.toLower w ws
  constructor
  · refine ⟨words s.toList, String.toList_ofList, fun g hg => ?_⟩
    exact ⟨ne_nil_of_mem_words hg, fun d hd => (plain_of_mem_words hg).cases_of_mem hd⟩
  · refine ⟨c.toLower, cs', ?_, by simpa using hc⟩
    rw [kebab, hws, String.toList_ofList, hstart]

theorem isSlug_snake : IsSlug '_' (snake s) := by
  obtain ⟨run, rest, hruns⟩ := exists_runs_cons snakeCut cs (Bool.or_eq_true_iff.2 (.inl hc))
  obtain ⟨cs', hstart⟩ := intercalate_cons '_' c.toLower (run.map Char.toLower) (rest.map (·.map Char.toLower))
  constructor
  · refine ⟨_, String.toList_ofList, fun g hg => ?_⟩
    obtain ⟨piece, hpiece, rfl⟩ := List.mem_map.1 hg
    refine ⟨by simpa using ne_nil_of_mem_runs hpiece, fun d hd => ?_⟩
    obtain ⟨e, he, rfl⟩ := List.mem_map.1 hd
    simpa [Char.isAlphanum] using (isAlphanum_of_mem_runs hpiece he).2
  · refine ⟨c.toLower, cs', ?_, by simpa using hc⟩
    rw [snake, hs, hruns, String.toList_ofList, List.map_cons, List.map_cons, hstart]

end Start

/-- The plural of a name that starts with a letter does so too. -/
theorem isSymbol_pluralOfWords {init : List (List Char)} {last : List Char}
    (hplain : ∀ w ∈ init ++ [last], Plain w) (hws : init ++ [last] = (c :: w) :: ws) (hc : c.isLower = true) :
    IsSymbol Char.isUpper (Naming.pluralOfWords (init ++ [last])) := by
  have hlast := hplain last (by simp)
  have hplural : ∀ d ∈ (plural (.ofList last)).toList, d.isAlphanum = true := by
    cases hlast with
    | letters ne small =>
      intro d hd
      simp [Char.isAlphanum, isAlpha_of_isLower ((plural_letters ne small).2.1 d hd)]
    | number ne digits =>
      rw [plural_number ne digits, String.toList_append, String.toList_ofList]
      intro d hd
      rcases List.mem_append.1 hd with hd | hd
      · exact (Plain.number ne digits).isAlphanum hd
      · obtain rfl := List.mem_singleton.1 hd
        rfl
  have hletters : ∀ u ∈ init ++ [(plural (.ofList last)).toList], ∀ d ∈ u, d.isAlphanum = true := by
    intro u hu
    rcases List.mem_append.1 hu with hu | hu
    · exact fun d hd => (hplain u (List.mem_append_left _ hu)).isAlphanum hd
    · rwa [List.mem_singleton.1 hu]
  rw [← String.toList_inj.1 (String.toList_ofList.trans (toList_pluralOfWords init last).symm)]
  cases init with
  | cons v init =>
    obtain ⟨rfl, -⟩ := List.cons.inj hws
    exact isSymbol_glued hletters (isAlpha_of_isLower hc)
  | nil =>
    obtain ⟨rfl, -⟩ := List.cons.inj hws
    cases hlast with
    | number _ digits => exact absurd ((case_of_isDigit (digits c (by simp))).2.symm.trans hc) Bool.false_ne_true
    | letters ne small =>
      obtain ⟨hne, hsmall, -⟩ := plural_letters ne small
      obtain ⟨d, p, hp⟩ := List.exists_cons_of_ne_nil hne
      rw [hp] at hsmall
      rw [List.nil_append, hp] at hletters ⊢
      exact isSymbol_glued hletters (isAlpha_of_isLower (hsmall d (List.mem_cons_self ..)))

end Scaffold.Name

namespace Scaffold

/-- What the generated code asks of the names of an entity. -/
structure Naming.Usable (n : Naming) : Prop where
  model : Name.IsSymbol Char.isUpper n.one.pascal
  unreserved : n.one.lower ∉ Review.reservedWords
  oneVariable : Name.IsSymbol Char.isLower n.one.camel
  manyVariable : Name.IsSymbol Char.isLower n.many.camel
  oneKebab : Name.IsSlug '-' n.one.kebab
  manyKebab : Name.IsSlug '-' n.many.kebab
  table : Name.IsSlug '_' n.table

namespace Review
variable {entity : String}

theorem notMem_reserved_of_ofEntity (h : (ofEntity (some entity)).hasErrors = false) :
    Name.lower (Name.pascal (Text.stripped entity)) ∉ reservedWords := by
  have hform := matchesLine_of_ofEntity h
  obtain ⟨c, cs, hcs, -⟩ := starts_of_matchesLine hform
  have hne : (Text.stripped entity).isEmpty = false := by
    rw [Bool.eq_false_iff]
    intro hempty
    rw [String.isEmpty_iff.1 hempty] at hcs
    cases hcs
  intro hmem
  unfold ofEntity at h
  simp only [Option.getD_some, hne, hform, hmem, List.contains_eq_mem, decide_true, Bool.not_true, Bool.false_eq_true,
    ↓reduceIte] at h
  have hreserved := (hasErrors_append.1 (hasErrors_append.1 h).1).1
  cases hreserved

end Review

namespace Naming

/-- From every accepted entity names are derived, and all of them are usable. -/
theorem usable_of_accepted {entity : String} (h : (Review.ofEntity (some entity)).hasErrors = false) :
    ∃ n, derive? (Text.stripped entity) = some n ∧ n.Usable := by
  obtain ⟨c, cs, hcs, hletter⟩ := Review.starts_of_matchesLine (Review.matchesLine_of_ofEntity h)
  obtain ⟨n, init, last, hn, hone, hws, hmany, hplain, -⟩ :=
    Name.exists_derive_words (Name.words_ne_nil_of_start hcs hletter)
  have hmodel := Name.isSymbol_pascal hcs hletter
  obtain ⟨d, ds, hds, hupper, -⟩ := id hmodel
  have hd : d.isAlpha = true := by simp [Char.isAlpha, hupper]
  obtain ⟨w, ws, hstart⟩ := Name.exists_words_of_start hds hd
  rw [hstart] at hws
  have hplural := Name.isSymbol_pluralOfWords hplain hws.symm (by simpa using hd)
  obtain ⟨e, es, hes, hupper', -⟩ := id hplural
  have he : e.isAlpha = true := by simp [Char.isAlpha, hupper']
  refine ⟨n, hn, ?_⟩
  constructor
  · rw [hone, Spellings.ofPascal_pascal]
    exact hmodel
  · rw [hone, Spellings.ofPascal_lower]
    exact Review.notMem_reserved_of_ofEntity h
  · rw [hone, Spellings.ofPascal_camel]
    exact Name.isSymbol_camel hds hd
  · rw [hmany, Spellings.ofPascal_camel]
    exact Name.isSymbol_camel hes he
  · rw [hone, Spellings.ofPascal_kebab]
    exact Name.isSlug_kebab hds hd
  · rw [hmany, Spellings.ofPascal_kebab]
    exact Name.isSlug_kebab hes he
  · rw [table, hmany, Spellings.ofPascal_snake]
    exact Name.isSlug_snake hes he

/-- An underscore more than needed, a digit behind one, and a plural that begins anew. -/
theorem usable_of_accepted_fe : (Review.ofEntity (some " fe__2_ ")).hasErrors = false ∧
    ∃ n, derive? (Text.stripped " fe__2_ ") = some n ∧ n.Usable := by
  have haccepted : (Review.ofEntity (some " fe__2_ ")).hasErrors = false := by decide +kernel
  exact ⟨haccepted, usable_of_accepted haccepted⟩

end Naming

end Scaffold
