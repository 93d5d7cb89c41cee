import Mathlib
import Scaffold.Proofs.Name.Letters

/-!
# The plural in paths and routes

The last word of a plural ends in `s` or is one of a few words that do not (`lower_plural`). So the plural in
kebab case is never empty and none of the words that stand in quotes in every route file
(`Naming.kebab_notMem`), and it is not much longer than the model (`Naming.length_kebab_le`).
-/

namespace Scaffold.Name

variable {c : Char} {cs w : List Char} {s word : String}

section Lower

theorem toList_lower (s : String) : (lower s).toList = s.toList.map Char.toLower :=
  String.toList_ofList

theorem map_toLower_capitalise (w : List Char) : (capitalise w).map Char.toLower = w.map Char.toLower := by
  cases w with
  | nil => rfl
  | cons c w => simp [capitalise, Char.toLower_toUpper_eq_toLower, Char.toLower_toLower_eq_toLower, Function.comp_def]

theorem lower_withCapitalOf (model word : String) : lower (withCapitalOf model word) = lower word := by
  unfold withCapitalOf
  split
  · next c cs _ hword =>
    split
    · rw [lower, String.toList_ofList, List.map_cons, Char.toLower_toUpper_eq_toLower, lower, hword, List.map_cons]
    · rfl
  · rfl

end Lower

section Plural

/-- The plurals that need not end in `s`. -/
def standing : List String :=
  uncountable ++ irregular.map Prod.snd

theorem lower_of_mem_irregular : ∀ a ∈ irregular, lower a.2 = a.2 := by
  decide +kernel

theorem mem_of_lookup {as : List (String × String)} {key v : String} (h : as.lookup key = some v) : (key, v) ∈ as := by
  obtain ⟨before, behind, rfl, -⟩ := List.lookup_eq_some_iff.1 h
  simp

theorem getLast?_lower_append (s : String) {tail : String} (htail : tail.toList.getLast? = some 's') :
    (lower (s ++ tail)).toList.getLast? = some 's' := by
  rw [toList_lower, String.toList_append, List.map_append, List.getLast?_append, List.getLast?_map, htail]
  rfl

theorem endings : ∀ tail ∈ ["es", "ies", "ves", "s"], tail.toList.getLast? = some 's' ∧ tail.toList.length ≤ 3 := by
  decide

/-- A plural by the ending is the word itself, if that ends in `s`, or has one of four endings behind a beginning of
the word, and is longer than the word. -/
theorem pluralByEnding_cases (word : String) :
    pluralByEnding word = word ∧ Text.endsWith (lower word) "s" = true ∨
      ∃ stem, ∃ tail ∈ ["es", "ies", "ves", "s"], pluralByEnding word = stem ++ tail ∧
        stem.toList <+: word.toList ∧ word.toList.length < stem.toList.length + tail.toList.length := by
  have hdrop : ∀ n, n < 3 → (dropLast n word).toList <+: word.toList ∧
      word.toList.length < (dropLast n word).toList.length + 3 := fun n hn => by
    rw [dropLast, String.toList_ofList, List.length_take]
    exact ⟨List.take_prefix .., by omega⟩
  have hwhole : ∀ n, 0 < n → word.toList <+: word.toList ∧ word.toList.length < word.toList.length + n :=
    fun n hn => ⟨List.prefix_rfl, Nat.lt_add_of_pos_right hn⟩
  unfold pluralByEnding
  simp only
  split
  · exact .inr ⟨word, "es", by simp, rfl, hwhole 2 (by omega)⟩
  split
  · next hends => exact .inl ⟨rfl, hends⟩
  split
  · exact .inr ⟨_, "ies", by simp, rfl, hdrop 1 (by omega)⟩
  split
  · exact .inr ⟨_, "ves", by simp, rfl, hdrop 2 (by omega)⟩
  split
  · exact .inr ⟨_, "ves", by simp, rfl, hdrop 1 (by omega)⟩
  split
  · exact .inr ⟨word, "es", by simp, rfl, hwhole 2 (by omega)⟩
  · exact .inr ⟨word, "s", by simp, rfl, hwhole 1 (by omega)⟩

/-- A plural is the word itself, an irregular form or one by the ending. -/
theorem plural_cases (word : String) :
    plural word = word ∧ (word = "" ∨ lower word ∈ standing ∨ Text.endsWith (lower word) "s" = true) ∨
      (∃ many, (lower word, many) ∈ irregular ∧ plural word = withCapitalOf word many) ∨
      ∃ stem, ∃ tail ∈ ["es", "ies", "ves", "s"], plural word = stem ++ tail ∧
        stem.toList <+: word.toList ∧ word.toList.length < stem.toList.length + tail.toList.length := by
  unfold plural
  simp only
  split
  · next hsame =>
    have hmem : word = "" ∨ lower word ∈ uncountable := by simpa using hsame
    exact .inl ⟨rfl, hmem.imp_right fun h => .inl (List.mem_append_left _ h)⟩
  · split
    · next many hmany => exact .inr (.inl ⟨many, mem_of_lookup hmany, rfl⟩)
    · split
      · next hone =>
        obtain ⟨one, hone⟩ := Option.isSome_iff_exists.1 hone
        obtain ⟨a, ha, heq⟩ := List.mem_map.1 (mem_of_lookup hone)
        rw [← (Prod.mk.inj heq).1]
        exact .inl ⟨rfl, .inr (.inl (List.mem_append_right _ (List.mem_map_of_mem ha)))⟩
      · exact (pluralByEnding_cases word).imp (And.imp_right fun h => .inr (.inr h)) .inr

/-- A plural ends in `s` or is one of the standing words, whatever its capitals. -/
theorem lower_plural (hword : word ≠ "") :
    (lower (plural word)).toList.getLast? = some 's' ∨ lower (plural word) ∈ standing := by
  rcases plural_cases word with ⟨hsame, hempty | hstanding | hends⟩ | ⟨many, hmem, hmany⟩ | ⟨stem, tail, htail, heq, -⟩
  · exact absurd hempty hword
  · exact .inr (by rwa [hsame])
  · obtain ⟨init, hinit⟩ := List.isSuffixOf_iff_suffix.1 hends
    rw [hsame, ← hinit]
    exact .inl List.getLast?_concat
  · rw [hmany, lower_withCapitalOf, lower_of_mem_irregular _ hmem]
    exact .inr (List.mem_append_right _ (List.mem_map_of_mem hmem))
  · rw [heq]
    exact .inl (getLast?_lower_append stem (endings tail htail).1)

theorem length_plural_le (word : String) : (plural word).toList.length ≤ word.toList.length + 3 := by
  have hlower : ∀ s : String, (lower s).toList.length = s.toList.length := fun s => by
    rw [toList_lower, List.length_map]
  have hirregular : ∀ a ∈ irregular, a.2.toList.length ≤ a.1.toList.length + 3 := by decide
  rcases plural_cases word with ⟨hsame, -⟩ | ⟨many, hmem, hmany⟩ | ⟨stem, tail, htail, heq, hstem, -⟩
  · rw [hsame]
    omega
  · have hlength := hirregular _ hmem
    have hcapital := congrArg (List.length ∘ String.toList) (lower_withCapitalOf word many)
    simp only [Function.comp_apply, hlower] at hlength hcapital
    rw [hmany]
    omega
  · have hshort := (endings tail htail).2
    have hprefix := hstem.length_le
    rw [heq, String.toList_append, List.length_append]
    omega

end Plural

section Words

theorem intercalate_of_notMem {sep : Char} {ws : List (List Char)} (h : sep ∉ [sep].intercalate ws) :
    [sep].intercalate ws = ws.flatten := by
  rcases ws with _ | ⟨w, _ | ⟨w', ws⟩⟩
  · rfl
  · simp
  · rw [List.intercalate_cons_cons] at h
    simp at h

theorem length_intercalate_le {sep : Char} {ws : List (List Char)} (h : ∀ w ∈ ws, w ≠ []) :
    ([sep].intercalate ws).length ≤ 2 * ws.flatten.length := by
  induction ws with
  | nil => simp
  | cons w ws ih =>
    obtain ⟨hw, hws⟩ := List.forall_mem_cons.1 h
    have hpos := List.length_pos_iff.2 hw
    have hrest := ih hws
    cases ws with
    | nil =>
      simp only [List.intercalate_singleton, List.flatten_cons, List.flatten_nil, List.append_nil]
      omega
    | cons w' ws =>
      rw [List.intercalate_cons_cons, List.flatten_cons]
      simp only [List.length_append, List.length_singleton] at hrest ⊢
      omega

end Words

end Scaffold.Name

namespace Scaffold.Naming
open Name

variable {entity : String} {n : Naming}

/-- The plural is made of the words of the model, with the last one in the plural. -/
theorem many_of_derive? (h : derive? entity = some n) : ∃ init last, last ≠ [] ∧
    words n.one.pascal.toList = init ++ [last] ∧ n.many.kebab = Name.kebab n.many.pascal ∧
      (lower n.many.pascal).toList =
        init.flatten.map Char.toLower ++ (lower (plural (.ofList last))).toList := by
  unfold derive? at h
  simp only at h
  split at h
  · cases h
  · next hne =>
    cases h
    obtain ⟨init, last, hws⟩ :=
      (List.eq_nil_or_concat' (words (pascal entity).toList)).resolve_left (by simpa using hne)
    have hlast : last ∈ words (pascal entity).toList := by simp [hws]
    refine ⟨init, last, ne_nil_of_mem_words hlast, hws, rfl, ?_⟩
    have hcapital : ∀ ws : List (List Char),
        (ws.flatMap capitalise).map Char.toLower = ws.flatten.map Char.toLower := by
      intro ws
      rw [List.map_flatMap, List.map_flatten, List.flatMap_def]
      simp only [map_toLower_capitalise]
    rw [toList_lower, hws]
    show (String.ofList _).toList.map _ = _
    rw [String.toList_ofList, hcapital, List.dropLast_concat, List.getLast?_concat]
    simp [toList_lower]

/-- The texts in quotes that stand in every route file, and the empty one. -/
def common : List String :=
  ["", "ok", "welcome", "api", "web", "id"]

theorem kebab_notMem (h : derive? entity = some n) : n.many.kebab ∉ common := by
  intro hmem
  obtain ⟨init, last, hlast, -, hkebab, hlower⟩ := many_of_derive? h
  have hdash : ∀ f ∈ common, '-' ∉ f.toList := by decide
  have htext : (kebab n.many.pascal).toList = n.many.kebab.toList := by rw [hkebab]
  rw [kebab, String.toList_ofList] at htext
  rw [intercalate_of_notMem (htext ▸ hdash _ hmem), flatten_words, ← toList_lower, hlower, List.filter_append] at htext
  have hword : String.ofList last ≠ "" := fun hempty => hlast (by rw [← String.toList_ofList (l := last), hempty]; rfl)
  rcases lower_plural hword with hs | hstanding
  · have hnone : ∀ f ∈ common, f.toList.getLast? ≠ some 's' := by decide
    obtain ⟨stem, hstem⟩ := List.getLast?_eq_some_iff.1 hs
    refine hnone _ hmem ?_
    rw [← htext, hstem, List.filter_append, ← List.append_assoc]
    exact List.getLast?_concat
  · have hplain : ∀ s ∈ standing, s.toList.filter Char.isAlphanum = s.toList := by decide +kernel
    have hnone : ∀ f ∈ common, ∀ s ∈ standing, ¬ s.toList <:+ f.toList := by decide +kernel
    rw [hplain _ hstanding] at htext
    exact hnone _ hmem _ hstanding ⟨_, htext⟩

theorem length_kebab_le (h : derive? entity = some n) :
    n.many.kebab.toList.length ≤ 2 * (n.one.pascal.toList.length + 3) := by
  obtain ⟨init, last, -, hwords, hkebab, hlower⟩ := many_of_derive? h
  have hmodel : (words n.one.pascal.toList).flatten.length ≤ n.one.pascal.toList.length := by
    rw [flatten_words]
    exact (List.length_filter_le ..).trans (by rw [List.length_map])
  have hplural : (words n.many.pascal.toList).flatten.length ≤ (lower n.many.pascal).toList.length := by
    rw [flatten_words, ← toList_lower]
    exact List.length_filter_le ..
  have hlast := length_plural_le (.ofList last)
  have hlong : (['-'].intercalate (words n.many.pascal.toList)).length ≤
      2 * (words n.many.pascal.toList).flatten.length :=
    length_intercalate_le fun w hw => ne_nil_of_mem_words hw
  rw [hkebab, kebab, String.toList_ofList]
  rw [hwords, List.flatten_append, List.length_append] at hmodel
  rw [hlower, List.length_append, List.length_map] at hplural
  simp only [toList_lower, List.length_map, String.toList_ofList, List.flatten_singleton] at hplural hlast hmodel
  omega

end Scaffold.Naming
