import Mathlib
import Scaffold.Proofs.Name.Letters

/-!
# Runs, put together and taken apart

A text falls into two where a run ends (`runs_append`), and cutting it along a finer cut is cutting each run of
a coarser one again (`runs_refine`). With the words of a text this gives: pieces with a separator between them
have the words of the pieces (`words_intercalate`), and a word that stands alone is one word, in small letters
or with a capital (`Plain.words_eq`, `Plain.words_capitalise`).
-/

namespace Scaffold.Name

variable {cut : Cut} {a b c : Char} {as bs cs w : List Char}

section Runs

/-- A character goes on with the first run after it or is a run of its own. -/
theorem runs_cons (hc : c.isAlphanum = true) :
    runs cut (c :: cs) = if goesOn cut c cs then (runs cut cs).modifyHead (c :: ·) else [c] :: runs cut cs := by
  cases cs with
  | nil => simp [runs, goesOn, hc]
  | cons d ds =>
    rw [runs, if_pos hc]
    split
    · next hnone =>
      -- without a run behind it, `d` is no letter or digit
      have hd : d.isAlphanum = false := by
        rw [runs] at hnone
        by_contra hd
        rw [if_pos (by simpa using hd)] at hnone
        repeat' split at hnone
        all_goals simp at hnone
      simp [goesOn, hd, hnone]
    · next run rest hrun => rw [hrun, List.modifyHead_cons]

theorem runs_ne_nil (hc : c.isAlphanum = true) : runs cut (c :: cs) ≠ [] := by
  have hflat := flatten_runs cut (c :: cs)
  rw [List.filter_cons_of_pos hc] at hflat
  intro hnone
  rw [hnone] at hflat
  simp at hflat

theorem runs_ne_nil_of_goesOn (h : goesOn cut a cs = true) : runs cut cs ≠ [] := by
  cases cs with
  | nil => cases h
  | cons c cs => exact runs_ne_nil (Bool.and_eq_true_iff.1 h).1

theorem exists_runs_cons (cut : Cut) (cs : List Char) (hc : c.isAlphanum = true) :
    ∃ run rest, runs cut (c :: cs) = (c :: run) :: rest := by
  rw [runs_cons hc]
  split
  · next h =>
    obtain ⟨run, rest, hrun⟩ := List.exists_cons_of_ne_nil (runs_ne_nil_of_goesOn h)
    exact ⟨run, rest, by rw [hrun, List.modifyHead_cons]⟩
  · exact ⟨[], _, rfl⟩

theorem modifyHead_append {α : Type} {f : α → α} {l m : List α} (h : l ≠ []) :
    (l ++ m).modifyHead f = l.modifyHead f ++ m := by
  cases l with
  | nil => exact absurd rfl h
  | cons x l => rfl

/-- A text falls into two where its runs do not go on, if what stands behind does not let a run end earlier. -/
theorem runs_append (hlook : ∀ a, ∀ b ∈ as.getLast?, cut a b bs.head? = cut a b none)
    (hend : ∀ a ∈ as.getLast?, goesOn cut a bs = false) : runs cut (as ++ bs) = runs cut as ++ runs cut bs := by
  induction as with
  | nil => rfl
  | cons c as ih =>
    rw [List.cons_append]
    cases hc : c.isAlphanum with
    | false =>
      rw [runs_cons_of_not_alphanum hc, runs_cons_of_not_alphanum hc]
      cases as with
      | nil => rfl
      | cons d as =>
        rw [List.getLast?_cons_cons] at hlook hend
        exact ih hlook hend
    | true =>
      rw [runs_cons hc, runs_cons hc]
      cases as with
      | nil =>
        have hlast : goesOn cut c bs = false := hend c rfl
        have hnone : goesOn cut c [] = false := rfl
        rw [List.nil_append, hlast, hnone]
        rfl
      | cons d as =>
        rw [List.getLast?_cons_cons] at hlook hend
        have hsame : goesOn cut c (d :: as ++ bs) = goesOn cut c (d :: as) := by
          cases as with
          | nil => simp [goesOn, hlook c d rfl]
          | cons e as => rfl
        rw [hsame, ih hlook hend]
        split
        · next hgo => exact modifyHead_append (runs_ne_nil_of_goesOn hgo)
        · rfl

theorem runs_map {cut' : Cut} {f : Char → Char} (hf : ∀ c, (f c).isAlphanum = c.isAlphanum)
    (hcut : ∀ a b next, cut (f a) (f b) (next.map f) = cut' a b next) :
    runs cut (cs.map f) = (runs cut' cs).map (·.map f) := by
  induction cs with
  | nil => rfl
  | cons c cs ih =>
    rw [List.map_cons]
    cases hc : c.isAlphanum with
    | false => rw [runs_cons_of_not_alphanum hc, runs_cons_of_not_alphanum (by rw [hf, hc]), ih]
    | true =>
      have hsame : goesOn cut (f c) (cs.map f) = goesOn cut' c cs := by
        cases cs with
        | nil => rfl
        | cons d cs => simp [goesOn, hf, ← hcut]
      rw [runs_cons hc, runs_cons (by rw [hf, hc]), hsame, ih]
      cases runs cut' cs <;> split <;> rfl

theorem runs_eq_singleton (hne : cs ≠ []) (halnum : ∀ c ∈ cs, c.isAlphanum = true)
    (hcut : ∀ a ∈ cs, ∀ b ∈ cs, ∀ next, cut a b next = false) : runs cut cs = [cs] := by
  induction cs with
  | nil => exact absurd rfl hne
  | cons c cs ih =>
    obtain ⟨hc, hcs⟩ := List.forall_mem_cons.1 halnum
    rw [runs_cons hc]
    cases cs with
    | nil => rfl
    | cons d cs =>
      have hgo : goesOn cut c (d :: cs) = true := by
        simp [goesOn, hcs d (by simp), hcut c (by simp) d (by simp)]
      rw [if_pos hgo, ih (by simp) hcs fun a ha b hb => hcut a (by simp [ha]) b (by simp [hb]), List.modifyHead_cons]

/-- To cut along `fine` is to cut along `coarse` and then each run along `inner`, if `inner` only looks at the
characters on both sides. -/
theorem runs_refine {fine : Cut} (coarse inner : Cut) (hinner : ∀ a b next, inner a b next = inner a b none)
    (hfine : ∀ a b next, a.isAlphanum = true → fine a b next = (coarse a b next || inner a b none)) :
    runs fine cs = (runs coarse cs).flatMap (runs inner) := by
  induction cs with
  | nil => rfl
  | cons c cs ih =>
    cases hc : c.isAlphanum with
    | false => rw [runs_cons_of_not_alphanum hc, runs_cons_of_not_alphanum hc, ih]
    | true =>
      rw [runs_cons hc, runs_cons hc, ih]
      cases hgo : goesOn coarse c cs with
      | false =>
        have hends : goesOn fine c cs = false := by
          cases cs with
          | nil => rfl
          | cons d ds =>
            simp only [goesOn, Bool.and_eq_false_iff, Bool.not_eq_false', hfine _ _ _ hc, Bool.or_eq_true] at hgo ⊢
            exact hgo.imp_right .inl
        simp [hends, runs, hc]
      | true =>
        cases cs with
        | nil => cases hgo
        | cons d ds =>
          obtain ⟨hd, hcoarse⟩ := Bool.and_eq_true_iff.1 hgo
          obtain ⟨run, rest, hrun⟩ := exists_runs_cons coarse ds hd
          have hsame : goesOn fine c (d :: ds) = goesOn inner c (d :: run) := by
            have hnot : coarse c d ds.head? = false := by simpa using hcoarse
            simp [goesOn, hfine _ _ _ hc, hnot, hinner c d run.head?]
          rw [hrun, if_pos rfl, List.modifyHead_cons, List.flatMap_cons, List.flatMap_cons, runs_cons hc, hsame]
          split
          · exact modifyHead_append (runs_ne_nil hd)
          · rfl

end Runs

section Words

/-- A word as it stands among the words of a text: small letters only or digits only. -/
inductive Plain : List Char → Prop where
  | letters {w : List Char} (ne : w ≠ []) (small : ∀ c ∈ w, c.isLower = true) : Plain w
  | number {w : List Char} (ne : w ≠ []) (digits : ∀ c ∈ w, c.isDigit = true) : Plain w

/-- Between letters and digits. -/
def digitCut : Cut := fun a b _ => a.isDigit != b.isDigit

theorem same_of_mem_runs {p : Char → Bool} (hcut : ∀ a b next, cut a b next = false → p a = p b)
    (hw : w ∈ runs cut cs) (ha : a ∈ w) (hb : b ∈ w) : p a = p b := by
  induction cs generalizing w a b with
  | nil => simp [runs] at hw
  | cons c cs ih =>
    cases hc : c.isAlphanum with
    | false =>
      rw [runs_cons_of_not_alphanum hc] at hw
      exact ih hw ha hb
    | true =>
      rw [runs_cons hc] at hw
      split at hw
      · next hgo =>
        cases cs with
        | nil => cases hgo
        | cons d ds =>
          obtain ⟨hd, hnot⟩ := Bool.and_eq_true_iff.1 hgo
          obtain ⟨run, rest, hrun⟩ := exists_runs_cons cut ds hd
          rw [hrun, List.modifyHead_cons] at hw
          rcases List.mem_cons.1 hw with rfl | hw
          · have hfirst : d :: run ∈ runs cut (d :: ds) := by simp [hrun]
            have heq : ∀ e ∈ c :: d :: run, p e = p d := by
              intro e he
              rcases List.mem_cons.1 he with rfl | he
              · exact hcut _ _ _ (by simpa using hnot)
              · exact ih hfirst he (by simp)
            rw [heq a ha, heq b hb]
          · exact ih (by simp [hrun, hw]) ha hb
      · rcases List.mem_cons.1 hw with rfl | hw
        · rw [List.mem_singleton.1 ha, List.mem_singleton.1 hb]
        · exact ih hw ha hb

theorem plain_of_mem_words (hw : w ∈ words cs) : Plain w := by
  obtain ⟨run, hrun, rfl⟩ := List.mem_map.1 hw
  have hne : run.map Char.toLower ≠ [] := by simpa using ne_nil_of_mem_runs hrun
  obtain ⟨d, hd⟩ := List.exists_mem_of_ne_nil _ (ne_nil_of_mem_runs hrun)
  have hsame : ∀ c ∈ run, c.isDigit = d.isDigit := fun c hc =>
    same_of_mem_runs (fun a b next h => by simp [wordCut] at h; exact h.1.1) hrun hc hd
  cases hdigit : d.isDigit with
  | true => exact .number hne (by simpa [hdigit] using hsame)
  | false =>
    refine .letters hne ?_
    simp only [List.mem_map, forall_exists_index, and_imp, forall_apply_eq_imp_iff₂]
    intro c hc
    have halnum := (isAlphanum_of_mem_runs hrun hc).2
    rw [Char.isLower_toLower_eq_isAlpha]
    simpa [Char.isAlphanum, hsame c hc, hdigit] using halnum

theorem words_cons (hc : c.isAlphanum = true) : words (c :: cs) =
    if goesOn wordCut c cs then (words cs).modifyHead (c.toLower :: ·) else [c.toLower] :: words cs := by
  rw [words, runs_cons hc, words]
  split
  · cases runs wordCut cs <;> rfl
  · rfl

theorem exists_words_cons (cs : List Char) (hc : c.isAlphanum = true) :
    ∃ w ws, words (c :: cs) = (c.toLower :: w) :: ws := by
  obtain ⟨run, rest, hrun⟩ := exists_runs_cons wordCut cs hc
  exact ⟨_, _, by rw [words, hrun, List.map_cons, List.map_cons]⟩

/-- A small letter behind a capital is the only one that could let a word end earlier. -/
theorem words_append (hcase : ∀ b ∈ as.getLast?, ∀ c ∈ bs.head?, b.isUpper = true → c.isLower = false)
    (hend : ∀ a ∈ as.getLast?, goesOn wordCut a bs = false) : words (as ++ bs) = words as ++ words bs := by
  have hlook : ∀ a, ∀ b ∈ as.getLast?, wordCut a b bs.head? = wordCut a b none := by
    intro a b hb
    cases hbs : bs.head? with
    | none => rfl
    | some c =>
      have hnext : (b.isUpper && c.isLower) = false := by simpa using hcase b hb c hbs
      simp [wordCut, startsCapitalised, Bool.and_assoc, hnext]
  rw [words, runs_append hlook hend, List.map_append]
  rfl

theorem words_append_cons (hsep : c.isAlphanum = false) : words (as ++ c :: bs) = words as ++ words bs := by
  have hlower : c.isLower = false := by
    simp only [Char.isAlphanum, Char.isAlpha, Bool.or_eq_false_iff] at hsep
    exact hsep.1.2
  rw [words_append (by simp [hlower]) (by simp [goesOn, hsep])]
  simp only [words, runs_cons_of_not_alphanum hsep]

theorem words_intercalate {sep : Char} {ls : List (List Char)} (hsep : sep.isAlphanum = false) :
    words ([sep].intercalate ls) = ls.flatMap words := by
  induction ls with
  | nil => rfl
  | cons l ls ih =>
    cases ls with
    | nil => simp
    | cons l' ls =>
      rw [List.intercalate_cons_cons, List.append_assoc, List.singleton_append, words_append_cons hsep, ih]
      rfl

/-- In small letters only the digits make a difference. -/
theorem words_map_toLower (cs : List Char) :
    words (cs.map Char.toLower) = (runs digitCut cs).map (·.map Char.toLower) := by
  have hcut : ∀ a b next, wordCut a.toLower b.toLower (next.map Char.toLower) = digitCut a b next := by
    intro a b next
    simp [wordCut, startsCapitalised, digitCut]
  rw [words, runs_map isAlphanum_toLower hcut]
  simp [Function.comp_def]

theorem toLower_of_isLower (h : c.isLower = true) : c.toLower = c :=
  Char.toLower_eq_of_not_isUpper (Char.not_isUpper_of_isLower h)

/-- A digit has no case. -/
theorem case_of_isDigit (h : c.isDigit = true) : c.isUpper = false ∧ c.isLower = false := by
  have halpha : c.isAlpha = false := by
    by_contra ha
    rw [isDigit_of_isAlpha (by simpa using ha)] at h
    cases h
  simpa [Char.isAlpha] using halpha

theorem toLower_of_small (h : c.isLower = true ∨ c.isDigit = true) : c.toLower = c := by
  rcases h with hlower | hdigit
  · exact toLower_of_isLower hlower
  · exact Char.toLower_eq_of_not_isUpper (by simp [case_of_isDigit hdigit])

theorem isAlpha_of_isLower (h : c.isLower = true) : c.isAlpha = true := by
  simp [Char.isAlpha, h]

namespace Plain

theorem ne_nil (h : Plain w) : w ≠ [] := by
  cases h with
  | letters ne _ => exact ne
  | number ne _ => exact ne

theorem cases_of_mem (h : Plain w) (hc : c ∈ w) : c.isLower = true ∨ c.isDigit = true := by
  cases h with
  | letters _ small => exact .inl (small c hc)
  | number _ digits => exact .inr (digits c hc)

theorem isAlphanum (h : Plain w) (hc : c ∈ w) : c.isAlphanum = true := by
  rcases h.cases_of_mem hc with hc | hc
  · simp [Char.isAlphanum, isAlpha_of_isLower hc]
  · simp [Char.isAlphanum, hc]

theorem map_toLower (h : Plain w) : w.map Char.toLower = w := by
  have hsame : ∀ c ∈ w, c.toLower = c := fun c hc => toLower_of_small (h.cases_of_mem hc)
  exact (List.map_congr_left hsame).trans w.map_id

end Plain

/-- A first letter, small or capital, and small letters behind it are one word. -/
theorem words_letters (hc : c.isAlpha = true) (hw : ∀ d ∈ w, d.isLower = true) :
    words (c :: w) = [c.toLower :: w] := by
  have hsmall : ∀ d ∈ w, d.isAlphanum = true ∧ d.isUpper = false ∧ d.isDigit = false := by
    intro d hd
    have halpha := isAlpha_of_isLower (hw d hd)
    exact ⟨by simp [Char.isAlphanum, halpha], by simpa using Char.not_isUpper_of_isLower (hw d hd),
      isDigit_of_isAlpha halpha⟩
  have hcut : ∀ a ∈ w, ∀ b ∈ w, ∀ next, wordCut a b next = false := by
    intro a ha b hb next
    simp [wordCut, startsCapitalised, hsmall a ha, hsmall b hb]
  rw [words, runs_cons (by simp [Char.isAlphanum, hc])]
  cases w with
  | nil => rfl
  | cons d w =>
    have hgo : goesOn wordCut c (d :: w) = true := by
      simp [goesOn, wordCut, startsCapitalised, hsmall d (by simp), isDigit_of_isAlpha hc]
    have hlower : (d :: w).map Char.toLower = d :: w := (Plain.letters (by simp) hw).map_toLower
    rw [if_pos hgo, runs_eq_singleton (by simp) (fun e he => (hsmall e he).1) hcut, List.modifyHead_cons,
      List.map_singleton, List.map_cons, hlower]

theorem words_number (hne : w ≠ []) (hw : ∀ c ∈ w, c.isDigit = true) : words w = [w] := by
  have hcut : ∀ a ∈ w, ∀ b ∈ w, ∀ next, wordCut a b next = false := by
    intro a ha b hb next
    simp [wordCut, startsCapitalised, hw a ha, hw b hb, case_of_isDigit (hw a ha), case_of_isDigit (hw b hb)]
  rw [words, runs_eq_singleton hne (fun c hc => by simp [Char.isAlphanum, hw c hc]) hcut, List.map_singleton,
    (Plain.number hne hw).map_toLower]

theorem capitalise_cons (h : Plain (c :: w)) : capitalise (c :: w) = c.toUpper :: w := by
  have hlower := h.map_toLower
  rw [List.map_cons] at hlower
  rw [capitalise, (List.cons.inj hlower).2]

theorem capitalise_number (hw : ∀ c ∈ w, c.isDigit = true) : capitalise w = w := by
  cases w with
  | nil => rfl
  | cons c w =>
    rw [capitalise_cons (.number (by simp) hw),
      Char.toUpper_eq_of_not_isLower (by simp [case_of_isDigit (hw c (by simp))])]

theorem Plain.words_capitalise (h : Plain w) : words (capitalise w) = [w] := by
  cases h with
  | number ne digits => rw [capitalise_number digits, words_number ne digits]
  | letters ne small =>
    obtain ⟨c, v, rfl⟩ := List.exists_cons_of_ne_nil ne
    obtain ⟨hc, hv⟩ := List.forall_mem_cons.1 small
    rw [capitalise_cons (.letters ne small), words_letters (by simpa using isAlpha_of_isLower hc) hv,
      Char.toLower_toUpper_eq_toLower, toLower_of_isLower hc]

theorem Plain.words_eq (h : Plain w) : words w = [w] := by
  cases h with
  | number ne digits => exact words_number ne digits
  | letters ne small =>
    obtain ⟨c, v, rfl⟩ := List.exists_cons_of_ne_nil ne
    obtain ⟨hc, hv⟩ := List.forall_mem_cons.1 small
    rw [words_letters (isAlpha_of_isLower hc) hv, toLower_of_isLower hc]

end Words

end Scaffold.Name
