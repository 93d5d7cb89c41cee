import Mathlib
import Scaffold.Name.Variants

/-!
# The letters of a name

Whatever an entity is called, its spellings are made of ASCII letters and digits and of the one
character that a style puts between words.
-/

namespace Scaffold.Text
variable {c : Char} {sep : List Char} {ls : List (List Char)}

theorem mem_intercalate (h : c ∈ sep.intercalate ls) : c ∈ sep ∨ ∃ l ∈ ls, c ∈ l := by
  induction ls with
  | nil => simp at h
  | cons l ls ih =>
    cases ls with
    | nil => exact .inr ⟨l, by simp, by simpa using h⟩
    | cons l' ls =>
      rw [List.intercalate_cons_cons, List.append_assoc, List.mem_append, List.mem_append] at h
      rcases h with h | h | h
      · exact .inr ⟨l, by simp, h⟩
      · exact .inl h
      · rcases ih h with h | ⟨m, hm, hc⟩
        · exact .inl h
        · exact .inr ⟨m, List.mem_cons_of_mem _ hm, hc⟩

end Scaffold.Text

namespace Scaffold.Name
variable {c : Char} {cs w : List Char} {s : String}

theorem isDigit_of_isAlpha (h : c.isAlpha = true) : c.isDigit = false := by
  simp [Char.isAlpha, Char.isUpper, Char.isLower, Char.isDigit, UInt32.le_iff_toNat_le] at h ⊢
  omega

@[simp] theorem isDigit_toLower (c : Char) : c.toLower.isDigit = c.isDigit := by
  cases h : c.isAlpha with
  | true => rw [isDigit_of_isAlpha h, isDigit_of_isAlpha (by simpa using h)]
  | false => rw [Char.toLower_eq_of_not_isUpper (by simp_all [Char.isAlpha])]

@[simp] theorem isDigit_toUpper (c : Char) : c.toUpper.isDigit = c.isDigit := by
  cases h : c.isAlpha with
  | true => rw [isDigit_of_isAlpha h, isDigit_of_isAlpha (by simpa using h)]
  | false => rw [Char.toUpper_eq_of_not_isLower (by simp_all [Char.isAlpha])]

@[simp] theorem isAlphanum_toLower (c : Char) : c.toLower.isAlphanum = c.isAlphanum := by
  simp [Char.isAlphanum]

@[simp] theorem isAlphanum_toUpper (c : Char) : c.toUpper.isAlphanum = c.isAlphanum := by
  simp [Char.isAlphanum]

theorem flatten_words (cs : List Char) : (words cs).flatten = (cs.map Char.toLower).filter Char.isAlphanum := by
  have hsame : Char.isAlphanum ∘ Char.toLower = Char.isAlphanum := funext isAlphanum_toLower
  rw [words, ← List.map_flatten, flatten_runs, List.filter_map, hsame]

theorem isAlphanum_of_mem_runs {cut : Cut} (hw : w ∈ runs cut cs) (hc : c ∈ w) : c ∈ cs ∧ c.isAlphanum = true := by
  have hmem := List.mem_flatten_of_mem hw hc
  rw [flatten_runs] at hmem
  exact List.mem_filter.1 hmem

theorem isAlphanum_of_mem_words (hw : w ∈ words cs) (hc : c ∈ w) : c.isAlphanum = true := by
  obtain ⟨run, hrun, rfl⟩ := List.mem_map.1 hw
  obtain ⟨d, hd, rfl⟩ := List.mem_map.1 hc
  rw [isAlphanum_toLower]
  exact (isAlphanum_of_mem_runs hrun hd).2

theorem isAlphanum_of_mem_capitalise (h : ∀ d ∈ w, d.isAlphanum = true) (hc : c ∈ capitalise w) :
    c.isAlphanum = true := by
  cases w with
  | nil => simp [capitalise] at hc
  | cons d w =>
    rcases List.mem_cons.1 hc with rfl | hc
    · rw [isAlphanum_toUpper]
      exact h d (List.mem_cons_self ..)
    · obtain ⟨e, he, rfl⟩ := List.mem_map.1 hc
      rw [isAlphanum_toLower]
      exact h e (List.mem_cons_of_mem _ he)

theorem mem_pascal (h : c ∈ (pascal s).toList) : c.isAlphanum = true := by
  rw [pascal, String.toList_ofList] at h
  obtain ⟨w, hw, hc⟩ := List.mem_flatMap.1 h
  exact isAlphanum_of_mem_capitalise (fun d hd => isAlphanum_of_mem_words hw hd) hc

theorem mem_kebab (h : c ∈ (kebab s).toList) : c = '-' ∨ c.isAlphanum = true := by
  rw [kebab, String.toList_ofList] at h
  rcases Text.mem_intercalate h with h | ⟨w, hw, hc⟩
  · exact .inl (List.mem_singleton.1 h)
  · exact .inr (isAlphanum_of_mem_words hw hc)

theorem mem_title (h : c ∈ (title s).toList) : c = ' ' ∨ c.isAlphanum = true := by
  rw [title, String.toList_ofList] at h
  rcases Text.mem_intercalate h with h | ⟨l, hl, hc⟩
  · exact .inl (List.mem_singleton.1 h)
  · obtain ⟨w, hw, rfl⟩ := List.mem_map.1 hl
    exact .inr (isAlphanum_of_mem_capitalise (fun d hd => isAlphanum_of_mem_words hw hd) hc)

theorem mem_camel (h : c ∈ (camel s).toList) : c.isAlphanum = true := by
  unfold camel at h
  split at h
  · cases h
  · next first rest hws =>
    have hletters : ∀ w ∈ first :: rest, ∀ d ∈ w, d.isAlphanum = true :=
      fun w hw d hd => isAlphanum_of_mem_words (hws ▸ hw) hd
    rw [String.toList_ofList, List.mem_append] at h
    rcases h with h | h
    · exact hletters first (List.mem_cons_self ..) c h
    · obtain ⟨w, hw, hc⟩ := List.mem_flatMap.1 h
      exact isAlphanum_of_mem_capitalise (hletters w (List.mem_cons_of_mem _ hw)) hc

theorem words_ne_nil (hc : c ∈ cs) (h : c.isAlphanum = true) : words cs ≠ [] := by
  intro hnone
  have hruns : runs wordCut cs = [] := List.map_eq_nil_iff.1 hnone
  have hfilter : cs.filter Char.isAlphanum = [] := by
    rw [← flatten_runs wordCut cs, hruns]
    rfl
  exact List.filter_eq_nil_iff.1 hfilter c hc h

theorem ne_nil_of_mem_words (h : w ∈ words cs) : w ≠ [] := by
  obtain ⟨run, hrun, rfl⟩ := List.mem_map.1 h
  simpa using ne_nil_of_mem_runs hrun

/-- A variable in small letters is that of one word. -/
theorem camel_eq_iff (hw : w ≠ []) (small : ∀ c ∈ w, c.isLower = true) :
    (camel s).toList = w ↔ words s.toList = [w] := by
  unfold camel
  cases hws : words s.toList with
  | nil => simpa using hw.symm
  | cons first rest =>
    simp only [String.toList_ofList, List.cons.injEq]
    constructor
    · rintro rfl
      cases rest with
      | nil => simp
      | cons next rest =>
        have hnext : next ∈ words s.toList := hws ▸ by simp
        obtain ⟨d, next, rfl⟩ := List.exists_cons_of_ne_nil (ne_nil_of_mem_words hnext)
        have hcapital := small d.toUpper (by simp [capitalise])
        rw [Char.isLower_toUpper_eq_false] at hcapital
        cases hcapital
    · rintro ⟨rfl, rfl⟩
      simp

theorem exists_mem_pascal (hc : c ∈ s.toList) (h : c.isAlphanum = true) : ∃ d, d ∈ (pascal s).toList := by
  obtain ⟨w, hw⟩ := List.exists_mem_of_ne_nil _ (words_ne_nil hc h)
  obtain ⟨d, w', rfl⟩ := List.exists_cons_of_ne_nil (ne_nil_of_mem_words hw)
  refine ⟨d.toUpper, ?_⟩
  rw [pascal, String.toList_ofList]
  exact List.mem_flatMap.2 ⟨d :: w', hw, List.mem_cons_self ..⟩

end Scaffold.Name

namespace Scaffold

section Spellings
variable (name : String)

@[simp] theorem Spellings.ofPascal_pascal : (ofPascal name).pascal = name := rfl
@[simp] theorem Spellings.ofPascal_camel : (ofPascal name).camel = Name.camel name := rfl
@[simp] theorem Spellings.ofPascal_kebab : (ofPascal name).kebab = Name.kebab name := rfl
@[simp] theorem Spellings.ofPascal_snake : (ofPascal name).snake = Name.snake name := rfl
@[simp] theorem Spellings.ofPascal_title : (ofPascal name).title = Name.title name := rfl
@[simp] theorem Spellings.ofPascal_lower : (ofPascal name).lower = Name.lower name := rfl

end Spellings

theorem Naming.exists_derive {entity : String} {c : Char} (hc : c ∈ entity.toList) (h : c.isAlphanum = true) :
    ∃ names, Naming.derive? entity = some names := by
  obtain ⟨d, hd⟩ := Name.exists_mem_pascal hc h
  have hwords : Name.words (Name.pascal entity).toList ≠ [] := Name.words_ne_nil hd (Name.mem_pascal hd)
  unfold Naming.derive?
  simp only
  exact ⟨_, rfl⟩

/-- All spellings of one model are made from its Pascal case. -/
theorem Naming.one_eq {entity : String} {n : Naming} (h : Naming.derive? entity = some n) :
    n.one = .ofPascal n.one.pascal := by
  unfold Naming.derive? at h
  simp only at h
  split at h <;> cases h
  rfl

/-- The spellings of a naming that was derived from the name of an entity. -/
structure Naming.Spelled (n : Naming) : Prop where
  pascal : ∀ c ∈ n.one.pascal.toList, c.isAlphanum = true
  pascal_ne : n.one.pascal.toList ≠ []
  kebab : ∀ c ∈ n.many.kebab.toList, c = '-' ∨ c.isAlphanum = true
  title : ∀ c ∈ n.many.title.toList, c = ' ' ∨ c.isAlphanum = true

theorem Naming.spelled {entity : String} {n : Naming} (h : Naming.derive? entity = some n) : n.Spelled := by
  unfold Naming.derive? at h
  simp only at h
  split at h
  · cases h
  · next hne =>
    cases h
    refine ⟨fun c => Name.mem_pascal, fun he => ?_, fun c => Name.mem_kebab, fun c => Name.mem_title⟩
    exact hne (by rw [show (Name.pascal entity).toList = [] from he]; rfl)

end Scaffold
