import Scaffold.Proofs.Php.Literal

/-!
# Literals without escapes

A text that is put between quotes as it is. The literal is the one that `quote` writes where there is nothing to escape
(`bare_eq_quote_iff`), and it is read back as the text where no quote ends it and no backslash takes what is behind it
(`literal?_bare_iff`). Both hold of lists of such literals, item by item (`bareList_eq_list_iff`, `reads_bareList_iff`).
-/

namespace Scaffold.Php

/-- The text between quotes, as it is. -/
def bare (s : String) : String :=
  "'" ++ s ++ "'"

def bareList (items : List String) : String :=
  "[" ++ ", ".intercalate (items.map bare) ++ "]"

/-- Characters that stand for themselves between quotes. -/
structure Inert (cs : List Char) : Prop where
  quote : '\'' ∉ cs
  pair : ¬ ['\\', '\\'] <:+: cs
  last : cs.getLast? ≠ some '\\'

/-- What follows an item of an array literal: further items, each behind a comma and a space, and the end. -/
inductive Follows : List Char → List String → Prop
  | close : Follows [']'] []
  | item {cs rest : List Char} {s : String} {items : List String} :
      literal? cs = some (s.toList, rest) → Follows rest items → Follows (',' :: ' ' :: cs) (s :: items)

/-- An array literal on one line with the given texts. -/
inductive Reads : List Char → List String → Prop
  | empty : Reads ['[', ']'] []
  | items {cs rest : List Char} {s : String} {items : List String} :
      literal? cs = some (s.toList, rest) → Follows rest items → Reads ('[' :: cs) (s :: items)

variable {c d : Char} {cs text rest rest' : List Char} {s : String} {items items' : List String}

section Inside

theorem inside?_backslash (hbackslash : c ≠ '\\') (hquote : c ≠ '\'') :
    inside? ('\\' :: c :: cs) = (inside? (c :: cs)).map fun (text, rest) => ('\\' :: text, rest) := by
  rw [inside?]
  · exact fun h => absurd h (by decide)
  · exact fun ds h => fun heq => hbackslash (List.cons.inj heq).1
  · exact fun ds h => fun heq => hquote (List.cons.inj heq).1

/-- A character in front of what is read. -/
theorem exists_of_map_cons (h : (inside? cs).map (fun (text, rest) => (c :: text, rest)) = some (text, rest)) :
    ∃ text', text = c :: text' ∧ inside? cs = some (text', rest) := by
  obtain ⟨⟨text', rest'⟩, hread, heq⟩ := Option.map_eq_some_iff.1 h
  cases heq
  exact ⟨text', rfl, hread⟩

/-- A literal is followed by an end of the text, and is longer than what it stands for. -/
theorem inside?_eq_some (h : inside? cs = some (text, rest)) :
    rest <:+ cs ∧ text.length + rest.length + 1 ≤ cs.length := by
  induction cs using inside?.induct generalizing text with
  | case1 => cases h
  | case2 cs =>
    cases h
    exact ⟨List.suffix_cons .., by simp⟩
  | case3 cs ih | case4 cs ih =>
    obtain ⟨text, rfl, hread⟩ := exists_of_map_cons h
    obtain ⟨hsuffix, hlength⟩ := ih hread
    exact ⟨(hsuffix.trans (List.suffix_cons ..)).trans (List.suffix_cons ..), by simp only [List.length_cons]; omega⟩
  | case5 c cs hquote hpair hescaped ih =>
    rw [inside?] at h
    · obtain ⟨text, rfl, hread⟩ := exists_of_map_cons h
      obtain ⟨hsuffix, hlength⟩ := ih hread
      exact ⟨hsuffix.trans (List.suffix_cons ..), by simp only [List.length_cons]; omega⟩
    · exact hquote
    · exact hpair
    · exact hescaped

theorem Inert.tail (h : Inert (c :: cs)) : Inert cs where
  quote := fun hmem => h.quote (List.mem_cons_of_mem _ hmem)
  pair := fun hinfix => h.pair (List.infix_cons hinfix)
  last := by
    cases cs with
    | nil => simp
    | cons d cs => exact h.last

theorem Inert.nil : Inert [] where
  quote := List.not_mem_nil
  pair := by simp
  last := by simp

theorem Inert.cons (hc : c ≠ '\'') (hcs : Inert cs) (hbackslash : c = '\\' → cs ≠ [] ∧ cs.head? ≠ some '\\') :
    Inert (c :: cs) where
  quote := fun hmem => (List.mem_cons.1 hmem).elim (fun heq => hc heq.symm) hcs.quote
  pair := fun hinfix => by
    rcases List.infix_cons_iff.1 hinfix with hprefix | hinfix
    · obtain ⟨heq, hhead⟩ := List.cons_prefix_cons.1 hprefix
      obtain ⟨ds, rfl⟩ := hhead
      exact (hbackslash heq.symm).2 rfl
    · exact hcs.pair hinfix
  last := by
    cases cs with
    | nil =>
      rintro heq
      exact (hbackslash (Option.some.inj heq)).1 rfl
    | cons d cs => exact hcs.last

theorem Inert.of_notMem (hquote : '\'' ∉ cs) (hbackslash : '\\' ∉ cs) : Inert cs where
  quote := hquote
  pair := fun h => hbackslash (h.subset (List.mem_cons_self ..))
  last := fun h => hbackslash (List.mem_of_getLast? h)

theorem inside?_of_inert (h : Inert cs) (rest : List Char) : inside? (cs ++ '\'' :: rest) = some (cs, rest) := by
  induction cs with
  | nil => rfl
  | cons c cs ih =>
    have hquote : c ≠ '\'' := fun heq => h.quote (heq ▸ List.mem_cons_self ..)
    have hread := ih h.tail
    by_cases hc : c = '\\'
    · subst hc
      cases cs with
      | nil => exact absurd rfl h.last
      | cons d cs =>
        have hd : d ≠ '\\' := fun heq => h.pair ⟨[], cs, by rw [heq]; rfl⟩
        have hdquote : d ≠ '\'' := fun heq => h.tail.quote (heq ▸ List.mem_cons_self ..)
        rw [List.cons_append, List.cons_append, inside?_backslash hd hdquote, ← List.cons_append, hread]
        rfl
    · rw [List.cons_append, inside?_cons hquote hc, hread]
      rfl

theorem inert_of_inside? (h : inside? (cs ++ '\'' :: rest) = some (cs, rest)) : Inert cs := by
  induction cs with
  | nil => exact .nil
  | cons c cs ih =>
    have hquote : c ≠ '\'' := by
      rintro rfl
      cases h
    by_cases hc : c = '\\'
    · subst hc
      cases cs with
      | nil =>
        obtain ⟨text, heq, -⟩ := exists_of_map_cons h
        cases heq
      | cons d cs =>
        by_cases hd : d = '\\'
        · subst hd
          obtain ⟨text, heq, hread⟩ := exists_of_map_cons h
          cases heq
          have hlength : ('\\' :: cs).length + rest.length + 1 ≤ (cs ++ '\'' :: rest).length :=
            (inside?_eq_some hread).2
          simp only [List.length_append, List.length_cons] at hlength
          omega
        · by_cases hdquote : d = '\''
          · subst hdquote
            obtain ⟨text, heq, -⟩ := exists_of_map_cons h
            cases heq
          · rw [List.cons_append, List.cons_append, inside?_backslash hd hdquote] at h
            obtain ⟨text, heq, hread⟩ := exists_of_map_cons h
            cases heq
            exact .cons hquote (ih hread) fun _ => ⟨List.cons_ne_nil d cs, by simpa using hd⟩
    · rw [List.cons_append, inside?_cons hquote hc] at h
      obtain ⟨text, heq, hread⟩ := exists_of_map_cons h
      cases heq
      exact .cons hquote (ih hread) fun heq => absurd heq hc

theorem literal?_eq_some (h : literal? cs = some (text, rest)) :
    rest <:+ cs ∧ text.length + rest.length + 2 ≤ cs.length := by
  unfold literal? at h
  split at h
  · obtain ⟨hsuffix, hlength⟩ := inside?_eq_some h
    exact ⟨hsuffix.trans (List.suffix_cons ..), by simp only [List.length_cons]; omega⟩
  · cases h

theorem toList_bare (s : String) : (bare s).toList = '\'' :: (s.toList ++ ['\'']) := by
  simp [bare, String.toList_append]

theorem length_bare (s : String) : (bare s).toList.length = s.toList.length + 2 := by
  simp [toList_bare]

/-- The literal is read as the text exactly where the text is inert. Otherwise it ends too early or too late. -/
theorem literal?_bare_iff (hlength : rest.length ≤ rest'.length) :
    literal? ((bare s).toList ++ rest) = some (s.toList, rest') ↔ Inert s.toList ∧ rest' = rest := by
  constructor
  · intro hread
    obtain ⟨hsuffix, hshorter⟩ := literal?_eq_some hread
    have hsame : rest'.length = rest.length := by
      rw [List.length_append, length_bare] at hshorter
      omega
    obtain rfl : rest' = rest :=
      (List.suffix_of_suffix_length_le hsuffix (List.suffix_append ..) hsame.le).eq_of_length hsame
    rw [toList_bare, List.cons_append, List.append_assoc] at hread
    exact ⟨inert_of_inside? hread, rfl⟩
  · rintro ⟨hinert, rfl⟩
    rw [toList_bare, List.cons_append, List.append_assoc]
    exact inside?_of_inert hinert rest'

end Inside

section Lists

/-- What follows the first item of a list of literals without escapes. -/
def moreBare (items : List String) : List Char :=
  items.flatMap fun item => ',' :: ' ' :: (bare item).toList

theorem toList_bareList_cons (s : String) (items : List String) :
    (bareList (s :: items)).toList = '[' :: ((bare s).toList ++ (moreBare items ++ [']'])) := by
  rw [bareList, String.toList_append, String.toList_append, String.toList_intercalate, List.map_map, ← List.append_assoc,
    moreBare, ← intercalate_items]
  rfl

theorem moreBare_cons_append (s : String) (items : List String) :
    moreBare (s :: items) ++ [']'] = ',' :: ' ' :: ((bare s).toList ++ (moreBare items ++ [']'])) := by
  simp [moreBare]

/-- Items that are read take as much room as they take without escapes, if not more. -/
theorem Follows.length_le (h : Follows cs items) : (moreBare items ++ [']']).length ≤ cs.length := by
  induction h with
  | close => exact Nat.le_refl _
  | item hread _ ih =>
    have hlonger := (literal?_eq_some hread).2
    rw [moreBare_cons_append, List.length_cons, List.length_cons, List.length_append, length_bare, List.length_cons,
      List.length_cons]
    omega

theorem follows_cons_iff : Follows (',' :: ' ' :: cs) (s :: items) ↔
    ∃ rest, literal? cs = some (s.toList, rest) ∧ Follows rest items := by
  constructor
  · rintro (_ | ⟨hread, hfollows⟩)
    exact ⟨_, hread, hfollows⟩
  · rintro ⟨rest, hread, hfollows⟩
    exact .item hread hfollows

theorem reads_cons_iff : Reads ('[' :: cs) (s :: items) ↔
    ∃ rest, literal? cs = some (s.toList, rest) ∧ Follows rest items := by
  constructor
  · rintro (_ | ⟨hread, hfollows⟩)
    exact ⟨_, hread, hfollows⟩
  · rintro ⟨rest, hread, hfollows⟩
    exact .items hread hfollows

theorem Follows.unique (h : Follows cs items) (h' : Follows cs items') : items = items' := by
  induction h generalizing items' with
  | close => cases h' with
    | close => rfl
  | item hread _ ih => cases h' with
    | item hread' hfollows' =>
      obtain ⟨htext, rfl⟩ := Prod.mk.inj (Option.some.inj (hread.symm.trans hread'))
      rw [String.toList_inj.1 htext, ih hfollows']

theorem Reads.unique (h : Reads cs items) (h' : Reads cs items') : items = items' := by
  cases h with
  | empty => cases h' with
    | empty => rfl
    | items hread => cases hread
  | items hread hfollows => cases h' with
    | empty => cases hread
    | items hread' hfollows' =>
      obtain ⟨htext, rfl⟩ := Prod.mk.inj (Option.some.inj (hread.symm.trans hread'))
      rw [String.toList_inj.1 htext, hfollows.unique hfollows']

/-- An item is read as itself with the items behind it, or the items behind it are not. -/
theorem exists_literal_iff : (∃ rest, literal? ((bare s).toList ++ (moreBare items ++ [']'])) = some (s.toList, rest) ∧
    Follows rest items) ↔ Inert s.toList ∧ Follows (moreBare items ++ [']']) items := by
  constructor
  · rintro ⟨rest, hread, hfollows⟩
    obtain ⟨hinert, rfl⟩ := (literal?_bare_iff hfollows.length_le).1 hread
    exact ⟨hinert, hfollows⟩
  · rintro ⟨hinert, hfollows⟩
    exact ⟨_, (literal?_bare_iff (Nat.le_refl _)).2 ⟨hinert, rfl⟩, hfollows⟩

theorem follows_moreBare_iff : Follows (moreBare items ++ [']']) items ↔ ∀ item ∈ items, Inert item.toList := by
  induction items with
  | nil => exact iff_of_true .close fun _ h => absurd h List.not_mem_nil
  | cons s items ih =>
    rw [moreBare_cons_append, follows_cons_iff, exists_literal_iff, ih, List.forall_mem_cons]

/-- The list is read as its items exactly where each of them is inert. -/
theorem reads_bareList_iff : Reads (bareList items).toList items ↔ ∀ item ∈ items, Inert item.toList := by
  cases items with
  | nil => exact iff_of_true .empty fun _ h => absurd h List.not_mem_nil
  | cons s items =>
    rw [toList_bareList_cons, reads_cons_iff, exists_literal_iff, follows_moreBare_iff, List.forall_mem_cons]

end Lists

section Escapes

theorem length_escape (cs : List Char) : cs.length ≤ (escape cs).length := by
  induction cs with
  | nil => exact Nat.le_refl _
  | cons c cs ih =>
    rw [escape]
    split <;> simp only [List.length_cons] <;> omega

theorem escape_eq_self_iff : escape cs = cs ↔ '\\' ∉ cs ∧ '\'' ∉ cs := by
  induction cs with
  | nil => simp [escape]
  | cons c cs ih =>
    rw [escape]
    by_cases hc : c = '\\' ∨ c = '\''
    · rw [if_pos (by simpa using hc)]
      refine iff_of_false (fun heq => ?_) fun hfree => ?_
      · have hlength := length_escape cs
        have hsame := congrArg List.length heq
        simp only [List.length_cons] at hsame
        omega
      · rcases hc with rfl | rfl
        · exact hfree.1 (List.mem_cons_self ..)
        · exact hfree.2 (List.mem_cons_self ..)
    · obtain ⟨hbackslash, hquote⟩ := not_or.1 hc
      rw [if_neg (by simpa using hc), List.cons_inj_right, ih]
      simp [Ne.symm hbackslash, Ne.symm hquote]

theorem length_bare_le (s : String) : (bare s).toList.length ≤ (quote s).toList.length := by
  have hlength := length_escape s.toList
  rw [length_bare, toList_quote, List.length_cons, List.length_append, List.length_singleton]
  omega

theorem bare_eq_quote_iff : bare s = quote s ↔ '\\' ∉ s.toList ∧ '\'' ∉ s.toList := by
  rw [← escape_eq_self_iff, ← String.toList_inj, toList_bare, toList_quote, List.cons_inj_right, List.append_left_inj]
  exact eq_comm

theorem length_moreBare_le (items : List String) : (moreBare items).length ≤ (more items).length := by
  induction items with
  | nil => exact Nat.zero_le _
  | cons s items ih =>
    have hlength := length_bare_le s
    simp only [moreBare, more, List.flatMap_cons, List.length_append, List.length_cons] at ih ⊢
    omega

/-- Escapes only lengthen, so what is written with them and without them agrees part by part. -/
theorem bare_append_eq_iff : (bare s).toList ++ moreBare items = (quote s).toList ++ more items ↔
    bare s = quote s ∧ moreBare items = more items := by
  constructor
  · intro heq
    have hsame := congrArg List.length heq
    have hitem := length_bare_le s
    have hmore := length_moreBare_le items
    rw [List.length_append, List.length_append] at hsame
    obtain ⟨hbare, hitems⟩ := List.append_inj heq (by omega)
    exact ⟨String.toList_inj.1 hbare, hitems⟩
  · rintro ⟨hbare, hitems⟩
    rw [hbare, hitems]

theorem moreBare_eq_more_iff : moreBare items = more items ↔ ∀ item ∈ items, bare item = quote item := by
  induction items with
  | nil => simp [moreBare, more]
  | cons s items ih =>
    rw [List.forall_mem_cons, ← ih, ← bare_append_eq_iff, moreBare, more, List.flatMap_cons, List.flatMap_cons,
      List.cons_append, List.cons_append, List.cons_append, List.cons_append, List.cons_inj_right, List.cons_inj_right]
    rfl

theorem bareList_eq_list_iff : bareList items = list items ↔
    ∀ item ∈ items, '\\' ∉ item.toList ∧ '\'' ∉ item.toList := by
  cases items with
  | nil => exact iff_of_true rfl fun _ h => absurd h List.not_mem_nil
  | cons s items =>
    rw [← String.toList_inj, toList_bareList_cons, toList_list_cons, List.cons_inj_right, ← List.append_assoc,
      ← List.append_assoc, List.append_left_inj, bare_append_eq_iff, moreBare_eq_more_iff, List.forall_mem_cons]
    exact and_congr bare_eq_quote_iff (forall₂_congr fun _ _ => bare_eq_quote_iff)

end Escapes

end Scaffold.Php
