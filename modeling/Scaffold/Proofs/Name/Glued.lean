import Scaffold.Proofs.Name.Runs

/-!
# Words in Pascal case, read again

In Pascal case words stand side by side with nothing but their capitals between them. Only two single letters run
into one word then, and two numbers (`Joins`); all others stay apart (`words_glued_of_apart`). So words of which no
two neighbours join are read back (`words_glued`), the words of a Pascal case name never join
(`isChain_words_glued`), and a name in Pascal case stays as it is unless two single letters met in it
(`glued_words_iff`): two numbers that met look the same as one.
-/

namespace Scaffold.Name

variable {a c d : Char} {cs u v w : List Char} {us ws : List (List Char)}

/-- Words in Pascal case. -/
def glued (ws : List (List Char)) : List Char :=
  ws.flatMap capitalise

/-- A word of one letter. -/
def Initial (w : List Char) : Prop :=
  ∃ c, c.isAlpha = true ∧ w = [c]

theorem initial_iff : w.length = 1 ∧ w.all Char.isAlpha = true ↔ Initial w := by
  rcases w with _ | ⟨c, _ | ⟨d, w⟩⟩ <;> simp [Initial]

instance (w : List Char) : Decidable (Initial w) :=
  decidable_of_iff _ initial_iff

def Numeric (w : List Char) : Prop :=
  ∀ c ∈ w, c.isDigit = true

/-- In Pascal case the two words are read as one. -/
def Joins (v w : List Char) : Prop :=
  Initial v ∧ Initial w ∨ Numeric v ∧ Numeric w

theorem not_initial_of_numeric (h : Numeric w) : ¬ Initial w := by
  rintro ⟨c, hc, rfl⟩
  exact Bool.false_ne_true ((isDigit_of_isAlpha hc).symm.trans (h c (by simp)))

theorem Plain.numeric (h : Plain (c :: w)) (hc : c.isDigit = true) : Numeric (c :: w) := by
  cases h with
  | number _ digits => exact digits
  | letters _ small =>
    have hletter := isDigit_of_isAlpha (isAlpha_of_isLower (small c (by simp)))
    exact absurd (hletter.symm.trans hc) Bool.false_ne_true

section Step

theorem glued_cons (w : List Char) (ws : List (List Char)) : glued (w :: ws) = capitalise w ++ glued ws :=
  rfl

theorem glued_cons_cons (h : Plain (c :: w)) : glued ((c :: w) :: ws) = c.toUpper :: (w ++ glued ws) := by
  rw [glued_cons, capitalise_cons h, List.cons_append]

theorem isAlpha_of_mem_capitalise (small : ∀ c ∈ v, c.isLower = true) (ha : a ∈ capitalise v) : a.isAlpha = true := by
  cases v with
  | nil => cases ha
  | cons c v =>
    rw [capitalise_cons (.letters (by simp) small)] at ha
    rcases List.mem_cons.1 ha with rfl | ha
    · simpa using isAlpha_of_isLower (small c (by simp))
    · exact isAlpha_of_isLower (small a (by simp [ha]))

/-- Behind the first of two words that do not join a word ends, whatever stands behind the second. -/
theorem wordCut_of_apart (hv : Plain v) (hw : Plain (d :: w)) (h : ¬ Joins v (d :: w))
    (ha : a ∈ (capitalise v).getLast?) : wordCut a d.toUpper (w ++ cs).head? = true := by
  have hmem := List.mem_of_getLast? ha
  cases hv with
  | number _ digits =>
    rw [capitalise_number digits] at hmem
    cases hw with
    | number _ digits' => exact absurd (.inr ⟨digits, digits'⟩) h
    | letters _ small =>
      simp [wordCut, digits a hmem, isDigit_of_isAlpha (isAlpha_of_isLower (small d (by simp)))]
  | letters ne small =>
    have halpha := isAlpha_of_mem_capitalise small hmem
    cases hw with
    | number _ digits => simp [wordCut, isDigit_of_isAlpha halpha, digits d (by simp)]
    | letters _ small' =>
      have hd := isAlpha_of_isLower (small' d (by simp))
      obtain ⟨c, v, rfl⟩ := List.exists_cons_of_ne_nil ne
      rw [capitalise_cons (.letters ne small)] at ha
      cases v with
      | cons c' v =>
        rw [List.getLast?_cons_cons] at ha
        simp [wordCut, small a (List.mem_cons_of_mem _ (List.mem_of_getLast? ha)), hd]
      | nil =>
        -- a single letter: then the next word is longer and its second letter is a small one
        have hc := isAlpha_of_isLower (small c (by simp))
        obtain ⟨e, w, rfl⟩ : ∃ e w', w = e :: w' := by
          refine List.exists_cons_of_ne_nil ?_
          rintro rfl
          exact h (.inl ⟨⟨c, hc, rfl⟩, d, hd, rfl⟩)
        obtain rfl : c.toUpper = a := by simpa using ha
        simp [wordCut, startsCapitalised, hc, hd, small' e (by simp)]

/-- Words that do not join stay words of their own. -/
theorem words_glued_of_apart (hv : Plain v) (hw : Plain w) (h : ¬ Joins v w) :
    words (glued (v :: w :: ws)) = v :: words (glued (w :: ws)) := by
  obtain ⟨d, w, rfl⟩ := List.exists_cons_of_ne_nil hw.ne_nil
  rw [glued_cons, words_append, hv.words_capitalise, List.singleton_append]
  · simp [glued_cons_cons hw]
  · intro a ha
    rw [glued_cons_cons hw, goesOn, wordCut_of_apart hv hw h ha]
    simp

theorem words_number_append (hw : Numeric (d :: w)) (hv : Numeric v) :
    words (v ++ (d :: w ++ cs)) = (words (d :: w ++ cs)).modifyHead (v ++ ·) := by
  induction v with
  | nil =>
    rw [List.nil_append]
    cases words (d :: w ++ cs) <;> rfl
  | cons c v ih =>
    obtain ⟨hc, hv'⟩ := List.forall_mem_cons.1 hv
    have hd := hw d (by simp)
    have hgo : goesOn wordCut c (v ++ (d :: w ++ cs)) = true := by
      cases v with
      | nil => simp [goesOn, wordCut, startsCapitalised, Char.isAlphanum, hc, hd, case_of_isDigit hc]
      | cons c' v =>
        have hc' := hv' c' (by simp)
        simp [goesOn, wordCut, startsCapitalised, Char.isAlphanum, hc, hc', case_of_isDigit hc]
    rw [List.cons_append, words_cons (by simp [Char.isAlphanum, hc]), if_pos hgo, ih hv',
      Char.toLower_eq_of_not_isUpper (by simp [case_of_isDigit hc])]
    cases words (d :: w ++ cs) <;> rfl

/-- Words that join are one word with what the second of them joins in its turn. -/
theorem words_glued_of_joins (hv : Plain v) (hw : Plain w) (hws : ∀ w ∈ ws, Plain w) (h : Joins v w) :
    words (glued (v :: w :: ws)) = (words (glued (w :: ws))).modifyHead (v ++ ·) := by
  obtain ⟨d, w, rfl⟩ := List.exists_cons_of_ne_nil hw.ne_nil
  rcases h with ⟨⟨x, hx, rfl⟩, y, hy, hword⟩ | ⟨hnv, hnw⟩
  · obtain ⟨rfl, rfl⟩ := List.cons.inj hword
    have hlow : x.toLower = x := List.head_eq_of_cons_eq hv.map_toLower
    have hnext : (glued ws).head?.any Char.isLower = false := by
      cases ws with
      | nil => rfl
      | cons u us =>
        have hu := hws u (by simp)
        obtain ⟨e, u, rfl⟩ := List.exists_cons_of_ne_nil hu.ne_nil
        simp [glued_cons_cons hu]
    have hgo : goesOn wordCut x.toUpper (glued ([d] :: ws)) = true := by
      simp [glued_cons_cons hw, goesOn, wordCut, startsCapitalised, Char.isAlphanum, hx, hy, hnext,
        isDigit_of_isAlpha hx, isDigit_of_isAlpha hy]
    rw [glued_cons_cons hv, List.nil_append, words_cons (by simp [Char.isAlphanum, hx]), if_pos hgo,
      Char.toLower_toUpper_eq_toLower, hlow]
    rfl
  · rw [glued_cons, glued_cons, capitalise_number hnv, capitalise_number hnw, words_number_append hnw hnv]

end Step

section Reread

theorem words_glued_singleton (hw : Plain w) : words (glued [w]) = [w] := by
  rw [glued, List.flatMap_singleton, hw.words_capitalise]

/-- Read again, words start with the first of them or with one that it has joined. -/
theorem exists_words_glued (hplain : ∀ u ∈ w :: ws, Plain u) :
    ∃ r us, words (glued (w :: ws)) = (w ++ r) :: us := by
  obtain ⟨hw, hws⟩ := List.forall_mem_cons.1 hplain
  cases ws with
  | nil => exact ⟨[], [], by rw [words_glued_singleton hw, List.append_nil]⟩
  | cons w' ws =>
    obtain ⟨hw', hws'⟩ := List.forall_mem_cons.1 hws
    by_cases h : Joins w w'
    · obtain ⟨d, u, rfl⟩ := List.exists_cons_of_ne_nil hw'.ne_nil
      have halnum : d.isAlphanum = true := hw'.isAlphanum (List.mem_cons_self ..)
      obtain ⟨u', us, hus⟩ := exists_words_cons (u ++ glued ws) ((isAlphanum_toUpper d).trans halnum)
      exact ⟨_, us, by rw [words_glued_of_joins hw hw' hws' h, glued_cons_cons hw', hus, List.modifyHead_cons]⟩
    · exact ⟨[], _, by rw [words_glued_of_apart hw hw' h, List.append_nil]⟩

theorem Joins.of_append {p r : List Char} (hv : v ≠ []) (hw : w ≠ []) (h : Joins (p ++ v) (w ++ r)) : Joins v w := by
  rcases h with ⟨⟨x, hx, hxs⟩, y, hy, hys⟩ | ⟨hnv, hnw⟩
  · have hv' : p = [] ∧ v = [x] := by simpa [List.append_eq_cons_iff, hv] using hxs
    have hw' : w = [y] ∧ r = [] := by simpa [List.append_eq_cons_iff, hw] using hys
    exact .inl ⟨⟨x, hx, hv'.2⟩, y, hy, hw'.1⟩
  · exact .inr ⟨fun c hc => hnv c (by simp [hc]), fun c hc => hnw c (by simp [hc])⟩

/-- Words of which no neighbours join are read back. -/
theorem words_glued (hplain : ∀ w ∈ ws, Plain w) (hapart : ws.IsChain fun v w => ¬ Joins v w) :
    words (glued ws) = ws := by
  induction ws with
  | nil => rfl
  | cons v ws ih =>
    obtain ⟨hv, hws⟩ := List.forall_mem_cons.1 hplain
    cases ws with
    | nil => exact words_glued_singleton hv
    | cons w ws =>
      obtain ⟨hfirst, hrest⟩ := List.isChain_cons_cons.1 hapart
      rw [words_glued_of_apart hv (hws w (by simp)) hfirst, ih hws hrest]

/-- What is read again has nothing left to join. -/
theorem isChain_words_glued (hplain : ∀ w ∈ ws, Plain w) :
    (words (glued ws)).IsChain fun v w => ¬ Joins v w := by
  induction ws with
  | nil => exact .nil
  | cons v ws ih =>
    obtain ⟨hv, hws⟩ := List.forall_mem_cons.1 hplain
    cases ws with
    | nil =>
      rw [words_glued_singleton hv]
      exact .singleton _
    | cons w ws =>
      obtain ⟨hw, hws'⟩ := List.forall_mem_cons.1 hws
      obtain ⟨r, us, hus⟩ := exists_words_glued hws
      have hrest := ih hws
      by_cases h : Joins v w
      · rw [words_glued_of_joins hv hw hws' h, hus, List.modifyHead_cons]
        rw [hus, List.isChain_cons] at hrest
        refine List.isChain_cons.2 ⟨fun u hu hjoins => hrest.1 u hu ?_, hrest.2⟩
        have hne : u ≠ [] := by
          have hmem : u ∈ words (glued (w :: ws)) := by
            rw [hus]
            exact List.mem_cons_of_mem _ (List.mem_of_mem_head? hu)
          exact ne_nil_of_mem_words hmem
        rw [← List.append_nil u] at hjoins
        exact hjoins.of_append (by simp [hw.ne_nil]) hne
      · rw [words_glued_of_apart hv hw h]
        refine List.isChain_cons.2 ⟨fun u hu hjoins => h ?_, hrest⟩
        obtain rfl : w ++ r = u := by simpa [hus] using hu
        exact Joins.of_append (p := []) hv.ne_nil hw.ne_nil hjoins

theorem glued_words_iff (hplain : ∀ w ∈ ws, Plain w) :
    glued (words (glued ws)) = glued ws ↔ ws.IsChain fun v w => ¬ (Initial v ∧ Initial w) := by
  induction ws with
  | nil => exact iff_of_true rfl .nil
  | cons v ws ih =>
    obtain ⟨hv, hws⟩ := List.forall_mem_cons.1 hplain
    cases ws with
    | nil =>
      rw [words_glued_singleton hv]
      exact iff_of_true rfl (.singleton _)
    | cons w ws =>
      obtain ⟨hw, hws'⟩ := List.forall_mem_cons.1 hws
      rw [List.isChain_cons_cons, ← ih hws]
      by_cases h : Joins v w
      · obtain ⟨r, us, hus⟩ := exists_words_glued hws
        rw [words_glued_of_joins hv hw hws' h, hus, List.modifyHead_cons]
        rcases h with ⟨⟨x, hx, rfl⟩, y, hy, rfl⟩ | ⟨hnv, hnw⟩
        · -- the second letter loses its capital
          refine iff_of_false (fun heq => ?_) fun hsame => hsame.1 ⟨⟨x, hx, rfl⟩, y, hy, rfl⟩
          have hcase : y.toLower = y.toUpper := by
            simp [glued, capitalise] at heq
            exact heq.1
          have hupper : y.toLower.isUpper = true := by rw [hcase, Char.isUpper_toUpper_eq_isAlpha, hy]
          rw [Char.isUpper_toLower_eq_false] at hupper
          cases hupper
        · obtain ⟨d, w, rfl⟩ := List.exists_cons_of_ne_nil hw.ne_nil
          have hmem : d :: w ++ r ∈ words (glued ((d :: w) :: ws)) := by simp [hus]
          have hnum : Numeric (d :: w ++ r) := (plain_of_mem_words hmem).numeric (hnw d (by simp))
          have hall : Numeric (v ++ (d :: w ++ r)) := fun c hc => (List.mem_append.1 hc).elim (hnv c) (hnum c)
          rw [glued_cons _ us, glued_cons v, glued_cons _ us, capitalise_number hall, capitalise_number hnum,
            capitalise_number hnv, List.append_assoc, List.append_right_inj,
            and_iff_right fun hinitial => not_initial_of_numeric hnv hinitial.1]
      · rw [words_glued_of_apart hv hw h, glued_cons, glued_cons v, List.append_right_inj,
          and_iff_right fun hinitial => h (.inl hinitial)]

end Reread

section Model
variable {entity : String}

theorem toList_pascal (s : String) : (pascal s).toList = glued (words s.toList) :=
  String.toList_ofList

theorem words_pascal_ne_nil (h : words entity.toList ≠ []) : words (pascal entity).toList ≠ [] := by
  obtain ⟨w, ws, hws⟩ := List.exists_cons_of_ne_nil h
  have hplain : ∀ u ∈ w :: ws, Plain u := hws ▸ fun _ => plain_of_mem_words
  obtain ⟨r, us, hus⟩ := exists_words_glued hplain
  rw [toList_pascal, hws, hus]
  simp

theorem derive?_of_words (h : words entity.toList ≠ []) : Naming.derive? entity =
    some ⟨.ofPascal (pascal entity), .ofPascal (Naming.pluralOfWords (words (pascal entity).toList))⟩ := by
  have hmodel := words_pascal_ne_nil h
  unfold Naming.derive?
  simp only

theorem derive?_pascal_iff (h : words entity.toList ≠ []) :
    Naming.derive? (pascal entity) = Naming.derive? entity ↔ pascal (pascal entity) = pascal entity := by
  rw [derive?_of_words h, derive?_of_words (words_pascal_ne_nil h)]
  constructor
  · intro heq
    exact congrArg (fun n => n.one.pascal) (Option.some.inj heq)
  · intro heq
    rw [heq]

theorem pascal_pascal_iff (entity : String) : pascal (pascal entity) = pascal entity ↔
    (words entity.toList).IsChain fun v w => ¬ (Initial v ∧ Initial w) := by
  rw [← glued_words_iff fun _ => plain_of_mem_words, ← toList_pascal, ← toList_pascal, String.toList_inj]

end Model

/-- A model that is given for the entity itself keeps all its names, unless two single letters follow each other in
the words of the entity. -/
theorem derive_model_iff {entity : String} (h : words entity.toList ≠ []) :
    ∃ n, Naming.derive? entity = some n ∧
      (Naming.derive? n.one.pascal = some n ↔
        (words entity.toList).IsChain fun v w => ¬ (Initial v ∧ Initial w)) ∧
      (pascal (pascal entity) = pascal entity ↔
        (words entity.toList).IsChain fun v w => ¬ (Initial v ∧ Initial w)) := by
  refine ⟨_, derive?_of_words h, ?_, pascal_pascal_iff entity⟩
  rw [← pascal_pascal_iff, ← derive?_pascal_iff h, ← derive?_of_words h]
  rfl

/-- `PlanB2` stays, `PlanAB` becomes `PlanAb`. -/
theorem derive_model_plans : words "plan_b_2".toList ≠ [] ∧ words "plan_a_b".toList ≠ [] ∧
    (∃ n, Naming.derive? "plan_b_2" = some n ∧ Naming.derive? n.one.pascal = some n) ∧
    ∃ n, Naming.derive? "plan_a_b" = some n ∧ Naming.derive? n.one.pascal ≠ some n := by
  have hstays : words "plan_b_2".toList ≠ [] := by decide
  have hchanges : words "plan_a_b".toList ≠ [] := by decide
  refine ⟨hstays, hchanges, ?_, ?_⟩
  · obtain ⟨n, hn, hiff, -⟩ := derive_model_iff hstays
    exact ⟨n, hn, hiff.2 (by decide)⟩
  · obtain ⟨n, hn, hiff, -⟩ := derive_model_iff hchanges
    exact ⟨n, hn, fun hsame => absurd (hiff.1 hsame) (by decide)⟩

end Scaffold.Name
