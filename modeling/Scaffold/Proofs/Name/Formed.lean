import Scaffold.Proofs.Name.LastWord

/-!
# The plural of a plural

A word in small letters is its own plural exactly if it has the form of one: the tables say so, or it ends in an `s` that
no rule takes for the end of a singular (`plural_eq_self_iff`). Most plurals have that form. An `s` behind a `u` has not,
since singulars like `bus` end so, and `axi`, `crisi` and `analysi` get the `s` of an irregular singular. No other plural
is changed again (`plural_plural_iff`).
-/

namespace Scaffold.Name

variable {word : String}

section Endings

theorem endsWith_append_self (s tail : String) : Text.endsWith (s ++ tail) tail = true := by
  rw [Text.endsWith, String.toList_append]
  exact List.isSuffixOf_iff_suffix.2 (List.suffix_append ..)

theorem endsWith_append_append (s t tail : String) : Text.endsWith (s ++ tail) (t ++ tail) = Text.endsWith s t := by
  rw [Bool.eq_iff_iff, Text.endsWith, Text.endsWith, List.isSuffixOf_iff_suffix, List.isSuffixOf_iff_suffix,
    String.toList_append, String.toList_append, List.suffix_append_self_iff]

/-- Two endings exclude each other if their last characters differ. -/
theorem endsWith_other {c : Char} {tail other : String} (h : Text.endsWith word tail = true)
    (hc : tail.toList.getLast? = some c) (hother : other.toList.getLast?.any (!· == c) = true) :
    Text.endsWith word other = false :=
  endsWith_of_last (by simp [last_of_endsWith h hc]) hother

/-- An `s` at the end that no rule takes for the end of a singular. -/
structure Kept (word : String) : Prop where
  s : Text.endsWith word "s" = true
  ss : Text.endsWith word "ss" = false
  us : Text.endsWith word "us" = false

theorem kept_append_s_iff :
    Kept (word ++ "s") ↔ Text.endsWith word "s" = false ∧ Text.endsWith word "u" = false := by
  have hss : Text.endsWith (word ++ "s") "ss" = Text.endsWith word "s" := endsWith_append_append word "s" "s"
  have hus : Text.endsWith (word ++ "s") "us" = Text.endsWith word "u" := endsWith_append_append word "u" "s"
  constructor
  · intro h
    exact ⟨hss ▸ h.ss, hus ▸ h.us⟩
  · rintro ⟨hs, hu⟩
    exact ⟨endsWith_append_self word "s", hss ▸ hs, hus ▸ hu⟩

theorem kept_append_es (stem : String) : Kept (stem ++ "es") := by
  have he : Text.endsWith (stem ++ "e") "e" = true := endsWith_append_self stem "e"
  rw [show "es" = "e" ++ "s" from rfl, ← String.append_assoc, kept_append_s_iff]
  exact ⟨endsWith_other (c := 'e') he rfl (by decide), endsWith_other (c := 'e') he rfl (by decide)⟩

/-- The plural by the ending is the word itself, ends in `es`, or has one `s` more than the word. -/
theorem pluralByEnding_forms (word : String) :
    pluralByEnding word = word ∧ Kept (lower word) ∨ (∃ stem, pluralByEnding word = stem ++ "es") ∨
      pluralByEnding word = word ++ "s" ∧ Text.endsWith (lower word) "s" = false := by
  unfold pluralByEnding
  simp only
  split
  · exact .inr (.inl ⟨word, rfl⟩)
  next hnone =>
  simp only [List.any_cons, List.any_nil, Bool.or_eq_true, not_or, Bool.not_eq_true] at hnone
  obtain ⟨-, -, -, -, hss, hus, -⟩ := hnone
  split
  · next hs => exact .inl ⟨rfl, hs, hss, hus⟩
  next hs =>
  split
  · exact .inr (.inl ⟨dropLast 1 word ++ "i", by rw [String.append_assoc]; rfl⟩)
  split
  · exact .inr (.inl ⟨dropLast 2 word ++ "v", by rw [String.append_assoc]; rfl⟩)
  split
  · exact .inr (.inl ⟨dropLast 1 word ++ "v", by rw [String.append_assoc]; rfl⟩)
  split
  · exact .inr (.inl ⟨word, rfl⟩)
  · exact .inr (.inr ⟨rfl, Bool.eq_false_iff.2 hs⟩)

theorem pluralByEnding_of_kept (h : Kept (lower word)) : pluralByEnding word = word := by
  have hother : ∀ tail ∈ ["sh", "ch", "x", "z"], Text.endsWith (lower word) tail = false := by
    have hends : ∀ tail ∈ ["sh", "ch", "x", "z"], tail.toList.getLast?.any (!· == 's') = true := by decide
    exact fun tail htail => endsWith_other h.s rfl (hends tail htail)
  simp only [List.forall_mem_cons] at hother
  simp [pluralByEnding, hother, h.s, h.ss, h.us]

/-- No rule is about words that end in `u`. -/
theorem pluralByEnding_of_u (h : Text.endsWith (lower word) "u" = true) : pluralByEnding word = word ++ "s" := by
  have hother : ∀ tail ∈ ["sh", "ch", "x", "z", "ss", "us", "s", "y", "fe", "f", "o"],
      Text.endsWith (lower word) tail = false := by
    have hends : ∀ tail ∈ ["sh", "ch", "x", "z", "ss", "us", "s", "y", "fe", "f", "o"],
      tail.toList.getLast?.any (!· == 'u') = true := by decide
    exact fun tail htail => endsWith_other h rfl (hends tail htail)
  simp only [List.forall_mem_cons] at hother
  simp [pluralByEnding, hother]

end Endings

section Lower

theorem lower_eq_self_iff : lower word = word ↔ ∀ c ∈ word.toList, c.toLower = c := by
  have hsame := List.map_inj_left (f := Char.toLower) (g := id) (l := word.toList)
  rwa [List.map_id, ← toList_lower, String.toList_inj] at hsame

theorem lower_of_small (small : ∀ c ∈ word.toList, c.isLower = true ∨ c.isDigit = true) : lower word = word :=
  lower_eq_self_iff.2 fun c hc => toLower_of_small (small c hc)

theorem lower_pluralByEnding (hlower : lower word = word) : lower (pluralByEnding word) = pluralByEnding word := by
  have hendings : ∀ tail ∈ ["es", "ies", "ves", "s"], lower tail = tail := by decide
  rcases pluralByEnding_cases word with ⟨hsame, -⟩ | ⟨stem, tail, htail, heq, hstem, -⟩
  · rw [hsame, hlower]
  · rw [heq]
    refine lower_eq_self_iff.2 fun c hc => ?_
    rw [String.toList_append] at hc
    rcases List.mem_append.1 hc with hc | hc
    · exact lower_eq_self_iff.1 hlower c (hstem.subset hc)
    · exact lower_eq_self_iff.1 (hendings tail htail) c hc

theorem plural_of_listed : ∀ w ∈ listed, plural w ∈ standing := by
  decide +kernel

theorem lower_plural_self (hlower : lower word = word) : lower (plural word) = plural word := by
  have hstanding : ∀ w ∈ standing, lower w = w := by decide +kernel
  by_cases hne : word = ""
  · subst hne
    decide
  · by_cases hmem : word ∈ listed
    · exact hstanding _ (plural_of_listed word hmem)
    · rw [plural_of_notMem hne (hlower.symm ▸ hmem), lower_pluralByEnding hlower]

end Lower

section Formed

/-- The form of a plural in small letters. -/
def Formed (word : String) : Prop :=
  word ∈ standing ∨ Kept word ∧ word ∉ irregular.map Prod.fst

theorem plural_of_formed (hlower : lower word = word) (h : Formed word) : plural word = word := by
  have hstanding : ∀ w ∈ standing, plural w = w := by decide +kernel
  rcases h with h | ⟨hkept, hone⟩
  · exact hstanding word h
  · by_cases hmem : word ∈ standing
    · exact hstanding word hmem
    · have hne : word ≠ "" := by
        rintro rfl
        exact absurd hkept.s (by decide)
      rw [plural_of_notMem hne (by simp [hlower, listed, hmem, hone]), pluralByEnding_of_kept (hlower.symm ▸ hkept)]

theorem formed_of_plural (hlower : lower word = word) (hne : word ≠ "") (h : plural word = word) : Formed word := by
  by_cases hmem : word ∈ listed
  · exact .inl (h ▸ plural_of_listed word hmem)
  · refine .inr ⟨?_, fun hone => hmem (List.mem_append_right _ hone)⟩
    rw [plural_of_notMem hne (hlower.symm ▸ hmem)] at h
    rcases pluralByEnding_forms word with ⟨-, hkept⟩ | ⟨stem, heq⟩ | ⟨heq, -⟩
    · exact hlower ▸ hkept
    · rw [← h, heq]
      exact kept_append_es stem
    · have hlength := congrArg (List.length ∘ String.toList) (h.symm.trans heq)
      simp at hlength

theorem plural_eq_self_iff (hlower : lower word = word) (hne : word ≠ "") : plural word = word ↔ Formed word :=
  ⟨formed_of_plural hlower hne, plural_of_formed hlower⟩

/-- The irregular singulars that end in an `s` like a plural, without that `s`. -/
def clipped : List String := ["axi", "crisi", "analysi"]

theorem mem_clipped {one : String} (hone : one ∈ irregular.map Prod.fst) (h : Kept one) :
    one ∈ clipped.map (· ++ "s") := by
  have hlisted : ∀ w ∈ irregular.map Prod.fst, Text.endsWith w "s" = true → Text.endsWith w "ss" = false →
      Text.endsWith w "us" = false → w ∈ clipped.map (· ++ "s") := by decide +kernel
  exact hlisted one hone h.s h.ss h.us

theorem formed_plural (hlower : lower word = word) (hne : word ≠ "") (hu : Text.endsWith word "u" = false)
    (hclipped : word ∉ clipped) : Formed (plural word) := by
  by_cases hmem : word ∈ listed
  · exact .inl (plural_of_listed word hmem)
  -- A plural by the ending is kept, so only the table of singulars can still take it.
  rw [plural_of_notMem hne (hlower.symm ▸ hmem)]
  rcases pluralByEnding_forms word with ⟨heq, hkept⟩ | ⟨stem, heq⟩ | ⟨heq, hs⟩
  · rw [heq]
    exact .inr ⟨hlower ▸ hkept, fun hone => hmem (List.mem_append_right _ hone)⟩
  · rw [heq]
    refine .inr ⟨kept_append_es stem, fun hone => ?_⟩
    have hes : ∀ w ∈ irregular.map Prod.fst, Text.endsWith w "es" = false := by decide +kernel
    exact Bool.false_ne_true ((hes _ hone).symm.trans (endsWith_append_self stem "es"))
  · have hkept : Kept (word ++ "s") := kept_append_s_iff.2 ⟨hlower ▸ hs, hu⟩
    rw [heq]
    refine .inr ⟨hkept, fun hone => ?_⟩
    obtain ⟨start, hstart, hsame⟩ := List.mem_map.1 (mem_clipped hone hkept)
    exact hclipped ((String.append_left_inj "s").1 hsame ▸ hstart)

theorem plural_of_u (hlower : lower word = word) (hu : Text.endsWith word "u" = true) : plural word = word ++ "s" := by
  have hlisted : ∀ w ∈ "" :: listed, Text.endsWith w "u" = false := by decide +kernel
  have hmem : word ∉ "" :: listed := fun hmem => Bool.false_ne_true ((hlisted word hmem).symm.trans hu)
  obtain ⟨hne, hmem⟩ := not_or.1 (mt List.mem_cons.2 hmem)
  rw [plural_of_notMem hne (hlower.symm ▸ hmem), pluralByEnding_of_u (hlower.symm ▸ hu)]

theorem not_formed_us (hu : Text.endsWith word "u" = true) : ¬ Formed (word ++ "s") := by
  rintro (hstanding | ⟨hkept, -⟩)
  · have hus : ∀ w ∈ standing, Text.endsWith w "us" = false := by decide +kernel
    have hends : Text.endsWith (word ++ "s") "us" = true := (endsWith_append_append word "u" "s").trans hu
    exact Bool.false_ne_true ((hus _ hstanding).symm.trans hends)
  · exact Bool.false_ne_true ((kept_append_s_iff.1 hkept).2.symm.trans hu)

/-- A plural is changed by a second plural exactly if the word ends in `u` or is one of three that become an irregular
singular. -/
theorem plural_plural_iff (small : ∀ c ∈ word.toList, c.isLower = true ∨ c.isDigit = true) :
    plural (plural word) = plural word ↔ Text.endsWith word "u" = false ∧ word ∉ ["axi", "crisi", "analysi"] := by
  have hlower := lower_of_small small
  constructor
  · intro h
    refine ⟨Bool.eq_false_iff.2 fun hu => ?_, fun hmem => ?_⟩
    · rw [plural_of_u hlower hu] at h
      have hlower' : lower (word ++ "s") = word ++ "s" := plural_of_u hlower hu ▸ lower_plural_self hlower
      have hne : word ++ "s" ≠ "" := by simp
      exact not_formed_us hu ((plural_eq_self_iff hlower' hne).1 h)
    · have hagain : ∀ w ∈ ["axi", "crisi", "analysi"], plural (plural w) ≠ plural w := by decide +kernel
      exact hagain word hmem h
  · rintro ⟨hu, hclipped⟩
    by_cases hne : word = ""
    · subst hne
      decide
    · exact plural_of_formed (lower_plural_self hlower) (formed_plural hlower hne hu hclipped)

/-- The plural `menus` is taken for a singular. -/
theorem plural_plural_menu : (∀ c ∈ "menu".toList, c.isLower = true ∨ c.isDigit = true) ∧
    (plural (plural "menu") = plural "menu" ↔
      Text.endsWith "menu" "u" = false ∧ "menu" ∉ ["axi", "crisi", "analysi"]) := by
  have hall : "menu".toList.all Char.isLower = true := by decide
  have small : ∀ c ∈ "menu".toList, c.isLower = true ∨ c.isDigit = true :=
    fun c hc => .inl (List.all_eq_true.1 hall c hc)
  exact ⟨small, plural_plural_iff small⟩

end Formed

end Scaffold.Name
