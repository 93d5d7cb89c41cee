import Mathlib.Data.List.Infix
import Scaffold.Php.Literal

/-!
# Single-quoted literals are read back

`literal?` reads a literal by the rules of PHP. It stops at the quote that `quote` has put behind a text, whatever
backslashes and quotes the text ends in (`literal?_quote`), so a literal tells its text and where it ends, and a list
of literals tells its items (`list_append_inj`).
-/

namespace Scaffold.Php

/-- What a single-quoted literal stands for, read behind its opening quote, and what follows it. A backslash takes a
backslash or a quote behind it, and stands for itself before anything else. -/
def inside? : List Char → Option (List Char × List Char)
  | [] => none
  | '\'' :: rest => some ([], rest)
  | '\\' :: '\\' :: cs => (inside? cs).map fun (text, rest) => ('\\' :: text, rest)
  | '\\' :: '\'' :: cs => (inside? cs).map fun (text, rest) => ('\'' :: text, rest)
  | c :: cs => (inside? cs).map fun (text, rest) => (c :: text, rest)

/-- The text of the single-quoted literal that `cs` starts with, and what follows it. -/
def literal? : List Char → Option (List Char × List Char)
  | '\'' :: cs => inside? cs
  | _ => none

variable {c : Char} {cs rest rest' : List Char} {s t : String} {xs ys : List String}

theorem inside?_cons (hquote : c ≠ '\'') (hbackslash : c ≠ '\\') :
    inside? (c :: cs) = (inside? cs).map fun (text, rest) => (c :: text, rest) := by
  rw [inside?]
  · exact fun h => hquote h
  · exact fun _ h => absurd h hbackslash
  · exact fun _ h => absurd h hbackslash

/-- The inside of a literal holds no quote that ends it. -/
theorem inside?_escape (cs rest : List Char) : inside? (escape cs ++ '\'' :: rest) = some (cs, rest) := by
  induction cs with
  | nil => rfl
  | cons c cs ih =>
    rw [escape]
    by_cases hbackslash : c = '\\'
    · subst hbackslash
      simp [inside?, ih]
    · by_cases hquote : c = '\''
      · subst hquote
        simp [inside?, ih]
      · simp [hbackslash, hquote, inside?_cons, ih]

theorem toList_quote (s : String) : (quote s).toList = '\'' :: (escape s.toList ++ ['\'']) :=
  String.toList_ofList

theorem literal?_quote (s : String) (rest : List Char) :
    literal? ((quote s).toList ++ rest) = some (s.toList, rest) := by
  rw [toList_quote, List.cons_append, List.append_assoc, literal?]
  exact inside?_escape s.toList rest

theorem quote_append_inj (h : (quote s).toList ++ rest = (quote t).toList ++ rest') : s = t ∧ rest = rest' := by
  have hread := literal?_quote s rest
  rw [h, literal?_quote, Option.some.injEq, Prod.mk.injEq] at hread
  exact ⟨(String.toList_inj.1 hread.1).symm, hread.2.symm⟩

theorem quote_injective : Function.Injective quote := by
  intro s t h
  have hend : (quote s).toList ++ [] = (quote t).toList ++ [] := by rw [h]
  exact (quote_append_inj hend).1

section List

/-- What follows the first item of a list: each other item behind a comma and a space. -/
def more (items : List String) : List Char :=
  items.flatMap fun item => ',' :: ' ' :: (quote item).toList

/-- Items that are written one by one, whatever the way. -/
theorem intercalate_items (write : String → String) (s : String) (items : List String) :
    [',', ' '].intercalate ((s :: items).map fun item => (write item).toList) =
      (write s).toList ++ items.flatMap fun item => ',' :: ' ' :: (write item).toList := by
  induction items generalizing s with
  | nil => simp
  | cons t items ih =>
    rw [List.map_cons, List.map_cons, List.intercalate_cons_cons,
      ← List.map_cons (f := fun item => (write item).toList), ih t, List.append_assoc]
    rfl

theorem toList_list (items : List String) : ∃ cs, (list items).toList = '[' :: cs := by
  exact ⟨_, by rw [list, String.toList_append, String.toList_append]; rfl⟩

theorem toList_list_nil : (list []).toList = ['[', ']'] := rfl

theorem toList_list_cons (s : String) (items : List String) :
    (list (s :: items)).toList = '[' :: ((quote s).toList ++ (more items ++ [']'])) := by
  rw [list, String.toList_append, String.toList_append, String.toList_intercalate, List.map_map, ← List.append_assoc,
    more, ← intercalate_items]
  rfl

/-- An item is followed by a comma or by the end of the list, and each is read as what it is. -/
theorem more_append_inj (h : more xs ++ ']' :: rest = more ys ++ ']' :: rest') : xs = ys ∧ rest = rest' := by
  induction xs generalizing ys with
  | nil =>
    cases ys with
    | nil => exact ⟨rfl, (List.cons.inj h).2⟩
    | cons y ys => exact absurd (List.cons.inj h).1 (by decide)
  | cons x xs ih =>
    cases ys with
    | nil => exact absurd (List.cons.inj h).1 (by decide)
    | cons y ys =>
      simp only [more, List.flatMap_cons, List.cons_append, List.cons.injEq, true_and, List.append_assoc] at h
      obtain ⟨rfl, htail⟩ := quote_append_inj h
      obtain ⟨rfl, hrest⟩ := ih htail
      exact ⟨rfl, hrest⟩

theorem list_append_inj (h : (list xs).toList ++ rest = (list ys).toList ++ rest') : xs = ys ∧ rest = rest' := by
  cases xs with
  | nil =>
    cases ys with
    | nil => exact ⟨rfl, List.append_cancel_left h⟩
    | cons y ys =>
      rw [toList_list_nil, toList_list_cons, toList_quote] at h
      exact absurd (List.cons.inj (List.cons.inj h).2).1 (by decide)
  | cons x xs =>
    cases ys with
    | nil =>
      rw [toList_list_nil, toList_list_cons, toList_quote] at h
      exact absurd (List.cons.inj (List.cons.inj h).2).1 (by decide)
    | cons y ys =>
      simp only [toList_list_cons, List.cons_append, List.cons.injEq, true_and, List.append_assoc] at h
      obtain ⟨rfl, htail⟩ := quote_append_inj h
      obtain ⟨rfl, hrest⟩ := more_append_inj htail
      exact ⟨rfl, hrest⟩

theorem list_injective : Function.Injective list := by
  intro xs ys h
  have hend : (list xs).toList ++ [] = (list ys).toList ++ [] := by rw [h]
  exact (list_append_inj hend).1

end List

end Scaffold.Php
