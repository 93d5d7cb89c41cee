import Scaffold.Proofs.Name.Runs

/-!
# Case styles lose nothing but capitals and separators

Snake, kebab and title case of a text have the words of the text, so whatever is made from words can be made from
any of them (`styles_lossless`). For snake case, which keeps digits with the small letters around them, this holds
because words are its pieces cut once more, between letters and digits (`words_eq_flatMap`).
-/

namespace Scaffold.Name

variable {a b : Char} {next : Option Char} {cs : List Char} {s t : String}

section Snake

theorem wordCut_eq (ha : a.isAlphanum = true) : wordCut a b next = (snakeCut a b next || digitCut a b none) := by
  have hb : b.isUpper = true → b.isDigit = false := fun h => isDigit_of_isAlpha (by simp [Char.isAlpha, h])
  simp only [wordCut, snakeCut, digitCut, startsCapitalised]
  simp only [Char.isAlphanum, Char.isAlpha, Bool.or_eq_true] at ha
  rcases ha with (hupper | hlower) | hdigit
  · have hd : a.isDigit = false := isDigit_of_isAlpha (by simp [Char.isAlpha, hupper])
    have hl : a.isLower = false := by simpa using Char.not_isLower_of_isUpper hupper
    simp [hupper, hd, hl, Bool.or_comm]
  · have hd := isDigit_of_isAlpha (isAlpha_of_isLower hlower)
    have hu : a.isUpper = false := by simpa using Char.not_isUpper_of_isLower hlower
    simp [hlower, hd, hu, Bool.or_comm]
  · obtain ⟨hu, hl⟩ := case_of_isDigit hdigit
    cases hbu : b.isUpper with
    | true => simp [hdigit, hu, hl, hb hbu]
    | false => simp [hdigit, hu, hl]

theorem words_eq_flatMap (cs : List Char) :
    words cs = (runs snakeCut cs).flatMap fun piece => (runs digitCut piece).map (·.map Char.toLower) := by
  rw [words, runs_refine snakeCut digitCut (fun _ _ _ => rfl) fun _ _ _ => wordCut_eq, List.map_flatMap]

/-- Without digits, words and the pieces of snake case are the same. -/
theorem words_of_no_digit (h : ∀ c ∈ cs, c.isDigit = false) :
    words cs = (runs snakeCut cs).map (·.map Char.toLower) := by
  have hwhole : ∀ piece ∈ runs snakeCut cs, runs digitCut piece = [piece] := by
    intro piece hpiece
    refine runs_eq_singleton (ne_nil_of_mem_runs hpiece) (fun c hc => (isAlphanum_of_mem_runs hpiece hc).2) ?_
    intro a ha b hb next
    simp [digitCut, h a (isAlphanum_of_mem_runs hpiece ha).1, h b (isAlphanum_of_mem_runs hpiece hb).1]
  rw [words_eq_flatMap, List.map_eq_flatMap]
  refine List.flatMap_congr fun piece hpiece => ?_
  rw [hwhole piece hpiece]
  rfl

end Snake

section Respelled

theorem words_snake (s : String) : words (snake s).toList = words s.toList := by
  have hpiece : ∀ piece, words (piece.map Char.toLower) = (runs digitCut piece).map (·.map Char.toLower) :=
    words_map_toLower
  rw [snake, String.toList_ofList, words_intercalate (by decide), List.flatMap_map, words_eq_flatMap]
  simp only [hpiece]

theorem words_kebab (s : String) : words (kebab s).toList = words s.toList := by
  rw [kebab, String.toList_ofList, words_intercalate (by decide),
    List.flatMap_congr fun w hw => (plain_of_mem_words hw).words_eq, List.flatMap_singleton']

theorem words_title (s : String) : words (title s).toList = words s.toList := by
  rw [title, String.toList_ofList, words_intercalate (by decide), List.flatMap_map,
    List.flatMap_congr fun w hw => (plain_of_mem_words hw).words_capitalise, List.flatMap_singleton']

theorem style_congr (h : words s.toList = words t.toList) :
    ∀ style ∈ [pascal, camel, kebab, title], style s = style t := by
  simp [pascal, camel, kebab, title, h]

theorem map_intercalate {α β : Type} (f : α → β) (sep : α) (ls : List (List α)) :
    ([sep].intercalate ls).map f = [f sep].intercalate (ls.map (·.map f)) := by
  induction ls with
  | nil => rfl
  | cons l ls ih =>
    cases ls with
    | nil => simp
    | cons l' ls =>
      rw [List.intercalate_cons_cons, List.map_append, List.map_append, ih]
      simp [List.intercalate_cons_cons]

theorem snake_of_no_digit (h : ∀ c ∈ s.toList, c.isDigit = false) :
    snake s = (kebab s).map fun c => if c = '-' then '_' else c := by
  have hword : ∀ w ∈ words s.toList, (w.map fun c => if c = '-' then '_' else c) = w := by
    intro w hw
    refine (List.map_congr_left fun c hc => if_neg ?_).trans w.map_id
    rintro rfl
    exact absurd (isAlphanum_of_mem_words hw hc) (by decide)
  apply String.toList_inj.1
  rw [String.toList_map, snake, kebab, String.toList_ofList, String.toList_ofList, map_intercalate,
    List.map_congr_left hword, List.map_id', words_of_no_digit h]
  rfl

end Respelled

/-- The words of a text are its letters and digits in small letters; snake, kebab and title case keep them, and so
does every style that is made from them; and without digits, snake case is kebab case with another separator. -/
theorem styles_lossless (s : String) :
    (words s.toList).flatten = (s.toList.filter Char.isAlphanum).map Char.toLower ∧
    (∀ t ∈ [snake s, kebab s, title s], words t.toList = words s.toList ∧
      ∀ style ∈ [pascal, camel, kebab, title], style t = style s) ∧
    ((∀ c ∈ s.toList, c.isDigit = false) → snake s = (kebab s).map fun c => if c = '-' then '_' else c) := by
  refine ⟨?_, ?_, snake_of_no_digit⟩
  · have hsame : Char.isAlphanum ∘ Char.toLower = Char.isAlphanum := funext isAlphanum_toLower
    rw [flatten_words, List.filter_map, hsame]
  · have hwords : ∀ t ∈ [snake s, kebab s, title s], words t.toList = words s.toList := by
      simp [words_snake, words_kebab, words_title]
    exact fun t ht => ⟨hwords t ht, style_congr (hwords t ht)⟩

theorem styles_lossless_response : (∀ c ∈ "getHTTPResponse".toList, c.isDigit = false) ∧
    snake "getHTTPResponse" = (kebab "getHTTPResponse").map fun c => if c = '-' then '_' else c := by
  have hnone : ∀ c ∈ "getHTTPResponse".toList, c.isDigit = false := by simp
  exact ⟨hnone, (styles_lossless "getHTTPResponse").2.2 hnone⟩

end Scaffold.Name
