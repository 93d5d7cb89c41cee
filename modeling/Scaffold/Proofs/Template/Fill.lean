import Mathlib.Data.List.Basic
import Scaffold.Template

/-!
# Filling is one simultaneous replacement

Wherever placeholders stand in a text, no two of them overlap (`Placeholder.At.disjoint`), since behind its
first two characters a placeholder holds no opening brace. So the scan, which goes on behind a placeholder
that it fills and one character further otherwise, misses none: `fillChars` cuts the text into characters
that stay and placeholders that give way to their values (`Cut`), and there is only one such cut.
-/

namespace Scaffold.Template

/-- An ASCII letter or underscore, and then ASCII letters, digits and underscores. -/
def IsKey : List Char → Prop
  | [] => False
  | c :: cs => isKeyStart c = true ∧ ∀ d ∈ cs, isKeyRest d = true

/-- A key in double braces, with one space on each side of it or none. -/
structure Placeholder where
  key : List Char
  spaced : Bool
  isKey : IsKey key

variable {value? value?' : List Char → Option (List Char)} {cs rest key close : List Char} {c : Char}

section Key

theorem isKeyRest_of_isKeyStart (h : isKeyStart c = true) : isKeyRest c = true := by
  simp only [isKeyStart, isKeyRest, Char.isAlphanum, Bool.or_eq_true] at h ⊢
  exact h.imp .inl id

theorem IsKey.isKeyRest (h : IsKey key) (hc : c ∈ key) : isKeyRest c = true := by
  cases key with
  | nil => exact h.elim
  | cons d ds =>
    rcases List.mem_cons.1 hc with rfl | hc
    · exact isKeyRest_of_isKeyStart h.1
    · exact h.2 c hc

theorem key?_eq_some : key? cs = some (key, rest) ↔
    IsKey key ∧ cs = key ++ rest ∧ ∀ c, rest.head? = some c → isKeyRest c = false := by
  cases cs with
  | nil =>
    simp only [key?, reduceCtorEq, false_iff]
    rintro ⟨hkey, h, -⟩
    rw [(List.append_eq_nil_iff.1 h.symm).1] at hkey
    exact hkey
  | cons c cs =>
    simp only [key?]
    constructor
    · split
      · next hc =>
        intro h
        obtain ⟨rfl, rfl⟩ := Prod.mk.inj (Option.some.inj h)
        refine ⟨⟨hc, List.all_eq_true.1 List.all_takeWhile⟩, by simp, fun d hd => ?_⟩
        have hstop := List.head?_dropWhile_not isKeyRest cs
        rw [hd] at hstop
        exact hstop
      · simp
    · rintro ⟨hkey, h, hrest⟩
      cases key with
      | nil => exact hkey.elim
      | cons d ds =>
        obtain ⟨rfl, rfl⟩ := List.cons.inj h
        have hstop : rest.takeWhile isKeyRest = [] ∧ rest.dropWhile isKeyRest = rest := by
          cases rest with
          | nil => exact ⟨rfl, rfl⟩
          | cons r rest => simp [hrest r rfl]
        simp [hkey.1, List.takeWhile_append_of_pos hkey.2, List.dropWhile_append_of_pos hkey.2, hstop]

theorem after?_eq_some : after? close cs = some rest ↔ cs = close ++ rest := by
  induction close generalizing cs with
  | nil => simp [after?]
  | cons x close ih =>
    cases cs with
    | nil => simp [after?]
    | cons c cs =>
      by_cases hc : c = x <;> simp [after?, hc, ih]

end Key

namespace Placeholder
variable {p q : Placeholder} {i j : Nat}

/-- What stands on each side of the key. -/
def gap (p : Placeholder) : List Char :=
  if p.spaced then [' '] else []

def inner (p : Placeholder) : List Char :=
  p.gap ++ (p.key ++ (p.gap ++ ['}', '}']))

/-- The placeholder as it is written. -/
def text (p : Placeholder) : List Char :=
  '{' :: '{' :: p.inner

/-- The placeholder stands in `cs`, from character `i` on. -/
def At (p : Placeholder) (cs : List Char) (i : Nat) : Prop :=
  p.text <+: cs.drop i

theorem notMem_inner (p : Placeholder) : '{' ∉ p.inner := by
  have hkey : '{' ∉ p.key := fun h => absurd (p.isKey.isKeyRest h) (by decide)
  have hgap : '{' ∉ p.gap := by unfold gap; split <;> decide
  simp [inner, hkey, hgap]

theorem inner_ne_nil (p : Placeholder) : p.inner ≠ [] := by
  simp [inner]

theorem text_ne_nil (p : Placeholder) : p.text ≠ [] :=
  List.cons_ne_nil _ _

end Placeholder

theorem placeholder?_tight (h : cs.head? ≠ some ' ') : placeholder? ('{' :: '{' :: cs) = (do
    let (key, rest) ← key? cs
    let rest ← after? ['}', '}'] rest
    pure (key, rest)) := by
  unfold placeholder?
  split
  · next heq => simp_all
  · next heq => cases heq; rfl
  · next hne => exact absurd rfl (hne cs)

/-- The scan stops at the placeholders. -/
theorem placeholder?_eq_some :
    placeholder? cs = some (key, rest) ↔ ∃ p : Placeholder, p.key = key ∧ cs = p.text ++ rest := by
  constructor
  · intro h
    unfold placeholder? at h
    split at h
    all_goals
      simp only [bind, Option.bind_eq_some_iff, pure, Option.some.injEq, Prod.mk.injEq, reduceCtorEq] at h
    · obtain ⟨⟨k, r⟩, hk, r', hr, rfl, rfl⟩ := h
      obtain ⟨hkey, rfl, -⟩ := key?_eq_some.1 hk
      obtain rfl := after?_eq_some.1 hr
      exact ⟨⟨k, true, hkey⟩, rfl, by simp [Placeholder.text, Placeholder.inner, Placeholder.gap]⟩
    · obtain ⟨⟨k, r⟩, hk, r', hr, rfl, rfl⟩ := h
      obtain ⟨hkey, rfl, -⟩ := key?_eq_some.1 hk
      obtain rfl := after?_eq_some.1 hr
      exact ⟨⟨k, false, hkey⟩, rfl, by simp [Placeholder.text, Placeholder.inner, Placeholder.gap]⟩
  · rintro ⟨⟨key, spaced, hkey⟩, rfl, rfl⟩
    cases spaced with
    | true =>
      have hread : key? (key ++ ' ' :: '}' :: '}' :: rest) = some (key, ' ' :: '}' :: '}' :: rest) :=
        key?_eq_some.2 ⟨hkey, rfl, by simp; decide⟩
      simp [Placeholder.text, Placeholder.inner, Placeholder.gap, placeholder?, hread, after?]
    | false =>
      have hread : key? (key ++ '}' :: '}' :: rest) = some (key, '}' :: '}' :: rest) :=
        key?_eq_some.2 ⟨hkey, rfl, by simp; decide⟩
      have hhead : (key ++ '}' :: '}' :: rest).head? ≠ some ' ' := by
        cases key with
        | nil => exact hkey.elim
        | cons c ds =>
          rintro h
          cases h
          exact absurd hkey.1 (by decide)
      simp [Placeholder.text, Placeholder.inner, Placeholder.gap, placeholder?_tight hhead, hread, after?]

namespace Placeholder
variable {p q : Placeholder} {i j k : Nat}

theorem At.getElem? (h : p.At cs i) (hk : k < p.text.length) : cs[i + k]? = p.text[k]? := by
  obtain ⟨r, hr⟩ := h
  rw [← List.getElem?_drop, ← hr, List.getElem?_append_left hk]

/-- Behind its first two characters a placeholder holds no opening brace. -/
theorem At.ne_brace (h : p.At cs i) (hi : i + 1 < k) (hk : k < i + p.text.length) : cs[k]? ≠ some '{' := by
  intro hbrace
  obtain ⟨m, rfl⟩ : ∃ m, k = i + (m + 2) := ⟨k - i - 2, by omega⟩
  rw [h.getElem? (by omega)] at hbrace
  exact p.notMem_inner (List.mem_of_getElem? (i := m) hbrace)

theorem At.le_of_lt (hp : p.At cs i) (hq : q.At cs j) (hij : i < j) : i + p.text.length ≤ j := by
  have hfirst : cs[j]? = some '{' := hq.getElem? (k := 0) (by simp [text])
  have hsecond : cs[j + 1]? = some '{' := hq.getElem? (k := 1) (by simp [text])
  refine Nat.not_lt.1 fun hlt => ?_
  by_cases hj : j = i + 1
  · have hlen : 2 < p.text.length := by simp [text, List.length_pos_iff, p.inner_ne_nil]
    exact hp.ne_brace (by omega) (by omega) hsecond
  · exact hp.ne_brace (by omega) (by omega) hfirst

theorem At.eq (hp : p.At cs i) (hq : q.At cs i) : p = q := by
  obtain ⟨r, hr⟩ := hp
  obtain ⟨s, hs⟩ := hq
  have hread : placeholder? (cs.drop i) = some (p.key, r) := placeholder?_eq_some.2 ⟨p, rfl, hr.symm⟩
  have hread' : placeholder? (cs.drop i) = some (q.key, s) := placeholder?_eq_some.2 ⟨q, rfl, hs.symm⟩
  rw [hread, Option.some.injEq, Prod.mk.injEq] at hread'
  obtain ⟨hkey, rfl⟩ := hread'
  have hlen := congrArg List.length (List.append_cancel_right (hr.trans hs.symm))
  obtain ⟨key, spaced, isKey⟩ := p
  obtain ⟨key', spaced', isKey'⟩ := q
  cases hkey
  cases spaced <;> cases spaced' <;> simp [text, inner, gap] at hlen ⊢

/-- Two occurrences of placeholders are one, or do not overlap. -/
theorem At.disjoint (hp : p.At cs i) (hq : q.At cs j) :
    p = q ∧ i = j ∨ i + p.text.length ≤ j ∨ j + q.text.length ≤ i := by
  rcases Nat.lt_trichotomy i j with h | rfl | h
  · exact .inr (.inl (hp.le_of_lt hq h))
  · exact .inl ⟨hp.eq hq, rfl⟩
  · exact .inr (.inr (hq.le_of_lt hp h))

end Placeholder

/-- A part of a text: a character that stays, or a placeholder that gives way to its value. -/
inductive Part where
  | char (c : Char)
  | slot (p : Placeholder)

namespace Part

def source : Part → List Char
  | char c => [c]
  | slot p => p.text

def filled (value? : List Char → Option (List Char)) : Part → List Char
  | char c => [c]
  | slot p => (value? p.key).getD []

theorem source_ne_nil (a : Part) : a.source ≠ [] := by
  cases a with
  | char c => exact List.cons_ne_nil _ _
  | slot p => exact p.text_ne_nil

end Part

/-- The parts of a text. All placeholders that have a value are among them, each at its place, and the rest
are characters. -/
structure Cut (value? : List Char → Option (List Char)) (cs : List Char) (parts : List Part) : Prop where
  source : parts.flatMap Part.source = cs
  known : ∀ p, .slot p ∈ parts → (value? p.key).isSome = true
  all : ∀ p i, p.At cs i → (value? p.key).isSome = true →
    ∃ before after, parts = before ++ .slot p :: after ∧ (before.flatMap Part.source).length = i

namespace Cut
variable {parts parts' : List Part} {a : Part} {p : Placeholder}

theorem nil : Cut value? [] [] where
  source := rfl
  known := by simp
  all p i hp := by
    rw [Placeholder.At, List.drop_nil, List.prefix_nil] at hp
    exact absurd hp p.text_ne_nil

theorem char (h : Cut value? cs parts) (hc : ∀ p : Placeholder, p.text <+: c :: cs → value? p.key = none) :
    Cut value? (c :: cs) (.char c :: parts) where
  source := by rw [List.flatMap_cons, h.source]; rfl
  known p hp := by
    rcases List.mem_cons.1 hp with heq | hp
    · cases heq
    · exact h.known p hp
  all p i hp hv := by
    cases i with
    | zero =>
      rw [hc p hp] at hv
      cases hv
    | succ i =>
      obtain ⟨before, after, rfl, hlength⟩ := h.all p i hp hv
      exact ⟨.char c :: before, after, rfl, by simp [Part.source, ← hlength, Nat.add_comm]⟩

theorem slot (h : Cut value? cs parts) (hp : (value? p.key).isSome = true) :
    Cut value? (p.text ++ cs) (.slot p :: parts) where
  source := by rw [List.flatMap_cons, h.source]; rfl
  known q hq := by
    rcases List.mem_cons.1 hq with heq | hq
    · cases heq
      exact hp
    · exact h.known q hq
  all q i hq hv := by
    have hfirst : p.At (p.text ++ cs) 0 := List.prefix_append ..
    rcases hfirst.disjoint hq with ⟨rfl, rfl⟩ | hbehind | hbefore
    · exact ⟨[], parts, rfl, rfl⟩
    · obtain ⟨j, rfl⟩ := Nat.exists_eq_add_of_le hbehind
      rw [Placeholder.At, Nat.zero_add, List.drop_append, List.drop_eq_nil_of_le (by omega),
        Nat.add_sub_cancel_left, List.nil_append] at hq
      obtain ⟨before, after, rfl, hlength⟩ := h.all q j hq hv
      exact ⟨.slot p :: before, after, rfl, by simp [Part.source, hlength]⟩
    · have hpos := List.length_pos_iff.2 q.text_ne_nil
      omega

theorem head (h : Cut value? cs (a :: parts)) (hp : p.text <+: cs) (hv : (value? p.key).isSome = true) :
    a = .slot p := by
  obtain ⟨before, after, hparts, hlength⟩ := h.all p 0 hp hv
  cases before with
  | nil => exact (List.cons.inj hparts).1
  | cons b before =>
    have hpos := List.length_pos_iff.2 b.source_ne_nil
    rw [List.flatMap_cons, List.length_append] at hlength
    omega

theorem tail (h : Cut value? cs (a :: parts)) : Cut value? (parts.flatMap Part.source) parts where
  source := rfl
  known p hp := h.known p (List.mem_cons_of_mem _ hp)
  all p i hp hv := by
    have hat : p.At cs (a.source.length + i) := by
      rw [← h.source, List.flatMap_cons, Placeholder.At, List.drop_append, List.drop_eq_nil_of_le (by omega),
        Nat.add_sub_cancel_left, List.nil_append]
      exact hp
    obtain ⟨before, after, hparts, hlength⟩ := h.all p _ hat hv
    cases before with
    | nil =>
      have hpos := List.length_pos_iff.2 a.source_ne_nil
      rw [List.flatMap_nil, List.length_nil] at hlength
      omega
    | cons b before =>
      obtain ⟨rfl, rfl⟩ := List.cons.inj hparts
      rw [List.flatMap_cons, List.length_append, Nat.add_left_cancel_iff] at hlength
      exact ⟨before, after, rfl, hlength⟩

theorem unique (h : Cut value? cs parts) (h' : Cut value? cs parts') : parts = parts' := by
  induction parts generalizing cs parts' with
  | nil =>
    cases parts' with
    | nil => rfl
    | cons b parts' =>
      have hsource := h'.source.trans h.source.symm
      rw [List.flatMap_cons, List.flatMap_nil, List.append_eq_nil_iff] at hsource
      exact absurd hsource.1 b.source_ne_nil
  | cons a parts ih =>
    have hstarts : a.source <+: cs := h.source ▸ List.prefix_append ..
    cases parts' with
    | nil =>
      have hsource := h.source.trans h'.source.symm
      rw [List.flatMap_cons, List.flatMap_nil, List.append_eq_nil_iff] at hsource
      exact absurd hsource.1 a.source_ne_nil
    | cons b parts' =>
      have hstarts' : b.source <+: cs := h'.source ▸ List.prefix_append ..
      have heq : a = b := by
        cases a with
        | slot p => exact (h'.head hstarts (h.known p (List.mem_cons_self ..))).symm
        | char c =>
          cases b with
          | slot q => exact h.head hstarts' (h'.known q (List.mem_cons_self ..))
          | char d =>
            obtain ⟨r, rfl⟩ := hstarts
            obtain ⟨s, hs⟩ := hstarts'
            exact congrArg _ (List.cons.inj hs).1.symm
      subst heq
      have hrest := h.source.trans h'.source.symm
      rw [List.flatMap_cons, List.flatMap_cons, List.append_cancel_left_eq] at hrest
      rw [ih h.tail (hrest ▸ h'.tail)]

theorem at_of_mem (h : Cut value? cs parts) (hp : .slot p ∈ parts) : ∃ i, p.At cs i := by
  obtain ⟨before, after, rfl⟩ := List.append_of_mem hp
  refine ⟨(before.flatMap Part.source).length, ?_⟩
  rw [← h.source, List.flatMap_append, List.flatMap_cons, Placeholder.At, List.drop_left]
  exact List.prefix_append ..

theorem congr (h : Cut value? cs parts) (hv : ∀ (p : Placeholder) i, p.At cs i → value?' p.key = value? p.key) :
    Cut value?' cs parts ∧ parts.flatMap (Part.filled value?') = parts.flatMap (Part.filled value?) := by
  have hslot : ∀ p, .slot p ∈ parts → value?' p.key = value? p.key := fun p hp => by
    obtain ⟨i, hat⟩ := h.at_of_mem hp
    exact hv p i hat
  refine ⟨⟨h.source, fun p hp => ?_, fun p i hp hsome => ?_⟩, List.flatMap_congr fun a ha => ?_⟩
  · rw [hslot p hp]
    exact h.known p hp
  · rw [hv p i hp] at hsome
    exact h.all p i hp hsome
  · cases a with
    | char c => rfl
    | slot p => rw [Part.filled, Part.filled, hslot p ha]

end Cut

/-- The scan replaces the placeholders with a value, all of them, and keeps the rest. -/
theorem exists_cut (value? : List Char → Option (List Char)) (cs : List Char) :
    ∃ parts, Cut value? cs parts ∧ fillChars value? cs = parts.flatMap (Part.filled value?) := by
  fun_induction fillChars value? cs with
  | case1 => exact ⟨[], .nil, rfl⟩
  | case2 c cs key rest hread value hvalue _ ih =>
    obtain ⟨p, rfl, hp⟩ := placeholder?_eq_some.1 hread
    obtain ⟨parts, hcut, hfill⟩ := ih
    refine ⟨.slot p :: parts, hp ▸ hcut.slot (by rw [hvalue]; rfl), ?_⟩
    rw [hfill, List.flatMap_cons, Part.filled, hvalue, Option.getD_some]
  | case3 c cs key rest hread hvalue ih =>
    obtain ⟨parts, hcut, hfill⟩ := ih
    refine ⟨.char c :: parts, hcut.char fun p hp => ?_, by rw [hfill]; rfl⟩
    obtain ⟨r, hr⟩ := hp
    rw [placeholder?_eq_some.2 ⟨p, rfl, hr.symm⟩] at hread
    cases hread
    exact hvalue
  | case4 c cs hread ih =>
    obtain ⟨parts, hcut, hfill⟩ := ih
    refine ⟨.char c :: parts, hcut.char fun p hp => ?_, by rw [hfill]; rfl⟩
    obtain ⟨r, hr⟩ := hp
    rw [placeholder?_eq_some.2 ⟨p, rfl, hr.symm⟩] at hread
    cases hread

theorem fillChars_congr (h : ∀ (p : Placeholder) i, p.At cs i → value?' p.key = value? p.key) :
    fillChars value?' cs = fillChars value? cs := by
  obtain ⟨parts, hcut, hfill⟩ := exists_cut value? cs
  obtain ⟨parts', hcut', hfill'⟩ := exists_cut value?' cs
  obtain ⟨hcut'', hfilled⟩ := hcut.congr h
  rw [hfill', hcut'.unique hcut'', hfilled, hfill]

/-- Placeholders do not overlap. Filling replaces each one that has a value, all at once, and keeps every
other character, so it depends on the values of the keys in the text alone. -/
theorem fill_simultaneous (content : String) (subs : List (String × String)) :
    (∀ (p q : Placeholder) (i j : Nat), p.At content.toList i → q.At content.toList j →
      p = q ∧ i = j ∨ i + p.text.length ≤ j ∨ j + q.text.length ≤ i) ∧
    (∃ parts, Cut (valueOf subs) content.toList parts ∧
      (fill content subs).toList = parts.flatMap (Part.filled (valueOf subs))) ∧
    ∀ subs', (∀ (p : Placeholder) i, p.At content.toList i → valueOf subs' p.key = valueOf subs p.key) →
      fill content subs' = fill content subs := by
  refine ⟨fun p q i j hp hq => hp.disjoint hq, ?_, fun subs' h => ?_⟩
  · rw [fill, String.toList_ofList]
    exact exists_cut (valueOf subs) content.toList
  · rw [fill, fill, fillChars_congr h]

example : fill "{{ ${{ m }}->id }} {{{{m}}}}" [("m", "{{ id }}"), ("id", "7")] =
    "{{ ${{ id }}->id }} {{{{ id }}}}" := by
  decide +kernel

end Scaffold.Template
