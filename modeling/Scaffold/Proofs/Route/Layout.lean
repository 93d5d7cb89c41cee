import Scaffold.Proofs.Text.ReadBack
import Scaffold.Route.Merge

/-!
# Which texts parse, and where an import goes

`Reads stage doc stage'` follows the tags of a document from one stage of the layout to another, and
`reach` does so for untagged lines. Blank lines count for neither, so whether a text parses is a
property of its lines with something on them (`parse_ok_iff`). `split_at_importPlace` is what the
insertion of an import rests on: all before the place is the header, and nothing behind it is an
import.
-/

namespace Scaffold.Route
open Text (isSolid stripped)

/-- The stage after a line; none where the line breaks the layout. -/
def after? (stage : Stage) (raw : String) : Option Stage :=
  (tagLine 0 stage raw).toOption.map Prod.snd

/-- The stage after some lines. -/
def reach (stage : Stage) (ls : List String) : Option Stage :=
  ls.foldlM after? stage

/-- From `stage` on, the lines of the document have their tags, and the last leads to `stage'`. -/
inductive Reads : Stage → Document → Stage → Prop where
  | nil (stage : Stage) : Reads stage [] stage
  | cons {stage stage' stage'' : Stage} {l : Line} {doc : Document}
      (line : tagLine 0 stage l.text = .ok (l.tag, stage')) (rest : Reads stage' doc stage'') :
      Reads stage (l :: doc) stage''

variable {stage stage' stage'' : Stage} {doc doc' : Document} {ls ls' : List String} {l : Line}
  {raw text : String} {tag : Tag} {n : Nat}

section Line

theorem not_isImport_of_startsWith {s start : String} (h : Text.startsWith s start = true)
    (hne : ∃ x ∈ start.toList.head?, x ≠ 'u') : isImport s = false := by
  obtain ⟨x, hx, hne⟩ := hne
  rw [Bool.eq_false_iff, isImport]
  unfold Text.startsWith at h ⊢
  rw [List.isPrefixOf_iff_prefix] at h
  rw [ne_eq, List.isPrefixOf_iff_prefix]
  intro huse
  obtain ⟨rest, hrest⟩ := h
  obtain ⟨rest', hrest'⟩ := huse
  rw [← hrest'] at hrest
  have hhead := congrArg List.head? hrest
  cases hstart : start.toList with
  | nil => rw [hstart] at hx; cases hx
  | cons y ys =>
    rw [hstart] at hx hhead
    obtain rfl : y = x := Option.some.inj hx
    exact hne (Option.some.inj hhead)

theorem not_isImport_of_isDirective {s : String} (h : isDirective s = true) : isImport s = false :=
  not_isImport_of_startsWith (Bool.and_eq_true_iff.1 h).1 ⟨'d', by decide, by decide⟩

theorem tagLine_toOption (n : Nat) (stage : Stage) (raw : String) :
    (tagLine n stage raw).toOption = (tagLine 0 stage raw).toOption := by
  unfold tagLine
  cases stage <;> grind [Except.toOption]

theorem tagLine_ok_iff {r : Tag × Stage} : tagLine n stage raw = .ok r ↔ tagLine 0 stage raw = .ok r := by
  have ho := tagLine_toOption n stage raw
  cases hn : tagLine n stage raw <;> cases h0 : tagLine 0 stage raw <;> rw [hn, h0] at ho <;>
    simp_all [Except.toOption]

theorem after?_eq_some : after? stage raw = some stage' ↔ ∃ tag, tagLine 0 stage raw = .ok (tag, stage') := by
  unfold after?
  cases tagLine 0 stage raw <;> simp [Except.toOption, Prod.ext_iff]

theorem after?_of_not_solid (h : isSolid raw = false) : after? stage raw = some stage := by
  have hs : (stripped raw).isEmpty = true := by simpa [isSolid] using h
  exact after?_eq_some.2 ⟨.blank, by simp only [tagLine, hs, ↓reduceIte]⟩

theorem after?_header (h : isSolid raw = true) :
    after? .header raw =
      some (if isDirective (stripped raw) || isImport (stripped raw) then .header else .body) := by
  have hs : (stripped raw).isEmpty = false := by simpa [isSolid] using h
  simp only [after?, tagLine, hs, Bool.false_eq_true, ↓reduceIte]
  cases isDirective (stripped raw) <;> cases isImport (stripped raw) <;> rfl

theorem after?_body (h : isSolid raw = true) :
    after? .body raw = if isImport (stripped raw) then none else some .body := by
  have hs : (stripped raw).isEmpty = false := by simpa [isSolid] using h
  simp only [after?, tagLine, hs, Bool.false_eq_true, ↓reduceIte]
  cases isImport (stripped raw) <;> rfl

/-- What a tag says of its line, of the stage before and of the stage after. -/
theorem tagLine_cases (h : tagLine 0 stage raw = .ok (tag, stage')) :
    (tag = .blank ∧ isSolid raw = false ∧ stage' = stage) ∨
    (isSolid raw = true ∧
      ((tag = .marker ∧ stage = .beforeMarker ∧ stage' = .header) ∨
       (tag = .directive ∧ stage = .header ∧ stage' = .header) ∨
       (tag = .import_ ∧ stage = .header ∧ stage' = .header ∧ isImport (stripped raw) = true) ∨
       (tag = .body ∧ stage ≠ .beforeMarker ∧ stage' = .body ∧ isImport (stripped raw) = false))) := by
  unfold tagLine at h
  unfold isSolid
  cases stage <;> grind

end Line

section Reach

theorem reach_cons : reach stage (raw :: ls) = (after? stage raw).bind (reach · ls) := rfl

theorem reach_append : reach stage (ls ++ ls') = (reach stage ls).bind (reach · ls') :=
  List.foldlM_append

theorem reach_filter (ls : List String) : reach stage (ls.filter isSolid) = reach stage ls := by
  induction ls generalizing stage with
  | nil => rfl
  | cons raw ls ih =>
    by_cases h : isSolid raw = true
    · rw [List.filter_cons_of_pos h, reach_cons, reach_cons]
      exact Option.bind_congr fun s _ => ih
    · rw [List.filter_cons_of_neg h, ih, reach_cons, after?_of_not_solid (by simpa using h)]
      rfl

theorem reach_lines (text : String) : reach stage (Text.lines text) = reach stage (Text.solid text.toList) :=
  (reach_filter _).symm

/-- Lines that are no imports may stand anywhere behind the opening tag. -/
theorem reach_of_no_import (hs : stage ≠ .beforeMarker)
    (h : ∀ raw ∈ ls, isSolid raw = true → isImport (stripped raw) = false) :
    ∃ stage', reach stage ls = some stage' ∧ stage' ≠ .beforeMarker := by
  induction ls generalizing stage with
  | nil => exact ⟨stage, rfl, hs⟩
  | cons raw ls ih =>
    have hls := fun raw hraw => h raw (List.mem_cons_of_mem _ hraw)
    obtain ⟨s, hafter, hne⟩ : ∃ s, after? stage raw = some s ∧ s ≠ .beforeMarker := by
      by_cases hsolid : isSolid raw = true
      · have hraw := h raw (List.mem_cons_self ..) hsolid
        cases stage with
        | beforeMarker => exact absurd rfl hs
        | header =>
          rw [after?_header hsolid]
          exact ⟨_, rfl, by split <;> simp⟩
        | body => rw [after?_body hsolid, hraw]; exact ⟨_, rfl, hs⟩
      · exact ⟨stage, after?_of_not_solid (by simpa using hsolid), hs⟩
    obtain ⟨stage', hreach, hne'⟩ := ih hne hls
    exact ⟨stage', by rw [reach_cons, hafter]; exact hreach, hne'⟩

theorem reach_ne_beforeMarker (hs : stage ≠ .beforeMarker) (h : reach stage ls = some stage') :
    stage' ≠ .beforeMarker := by
  induction ls generalizing stage with
  | nil => cases h; exact hs
  | cons raw ls ih =>
    rw [reach_cons, Option.bind_eq_some_iff] at h
    obtain ⟨s, ha, hr⟩ := h
    refine ih (fun e => ?_) hr
    obtain ⟨tag, ht⟩ := after?_eq_some.1 ha
    rcases tagLine_cases ht with ⟨-, -, h⟩ | ⟨-, h | h | h | h⟩ <;> simp_all

end Reach

section Tags

theorem Reads.reach (h : Reads stage doc stage') : reach stage (doc.map (·.text)) = some stage' := by
  induction h with
  | nil => rfl
  | cons line rest ih =>
    rw [List.map_cons, reach_cons, after?_eq_some.2 ⟨_, line⟩]
    exact ih

theorem reads_append : Reads stage (doc ++ doc') stage'' ↔ ∃ s, Reads stage doc s ∧ Reads s doc' stage'' := by
  induction doc generalizing stage with
  | nil =>
    constructor
    · exact fun h => ⟨stage, .nil _, h⟩
    · rintro ⟨s, h, h'⟩; cases h; exact h'
  | cons l doc ih =>
    constructor
    · intro h
      cases h with
      | cons line rest =>
        obtain ⟨s, h, h'⟩ := ih.1 rest
        exact ⟨s, .cons line h, h'⟩
    · rintro ⟨s, h, h'⟩
      cases h with
      | cons line rest => exact .cons line (ih.2 ⟨s, rest, h'⟩)

theorem reads_singleton : Reads stage [l] stage' ↔ tagLine 0 stage l.text = .ok (l.tag, stage') := by
  constructor
  · intro h
    cases h with
    | cons line rest => cases rest; exact line
  · exact fun line => .cons line (.nil _)

theorem Reads.blank_stays (h : Reads stage [l] stage') (hl : l.tag = .blank) : stage' = stage := by
  rcases tagLine_cases (reads_singleton.1 h) with ⟨-, -, hs⟩ | ⟨-, h | h | h | h⟩
  · exact hs
  all_goals rw [hl] at h; cases h.1

theorem Reads.blank_iff (h : Reads stage doc stage') (hl : l ∈ doc) : l.tag = .blank ↔ isSolid l.text = false := by
  induction h with
  | nil => cases hl
  | cons line rest ih =>
    rcases List.mem_cons.1 hl with rfl | hl
    · rcases tagLine_cases line with ⟨ht, hs, -⟩ | ⟨hs, h | h | h | h⟩ <;> simp [*]
    · exact ih hl

theorem Reads.no_import (h : Reads .body doc stage) (hl : l ∈ doc) (hs : isSolid l.text = true) :
    isImport (stripped l.text) = false := by
  generalize hb : Stage.body = s at h
  induction h with
  | nil => cases hl
  | cons line rest ih =>
    subst hb
    rcases tagLine_cases line with ⟨-, hs', rfl⟩ | ⟨-, h | h | h | ⟨-, -, rfl, hi⟩⟩
    · rcases List.mem_cons.1 hl with rfl | hl
      · rw [hs] at hs'; cases hs'
      · exact ih hl rfl
    · simp at h
    · simp at h
    · simp at h
    · rcases List.mem_cons.1 hl with rfl | hl
      · exact hi
      · exact ih hl rfl

theorem Reads.ne_body (h : Reads stage doc stage') (hs : stage ≠ .body) (hd : ∀ l ∈ doc, l.tag ≠ .body) :
    stage' ≠ .body := by
  induction h with
  | nil => exact hs
  | cons line rest ih =>
    refine ih (fun e => ?_) fun l hl => hd l (List.mem_cons_of_mem _ hl)
    have hb := hd _ (List.mem_cons_self ..)
    rcases tagLine_cases line with ⟨-, -, h⟩ | ⟨-, h | h | h | h⟩ <;> simp_all

theorem Reads.exists_header (h : Reads .beforeMarker doc stage) (hs : stage ≠ .beforeMarker) :
    ∃ l ∈ doc, Document.isHeader l = true := by
  generalize hb : Stage.beforeMarker = s at h
  induction h with
  | nil => exact absurd hb.symm hs
  | cons line rest ih =>
    subst hb
    rcases tagLine_cases line with ⟨-, -, rfl⟩ | ⟨-, h | h | h | h⟩
    · obtain ⟨l, hl, hh⟩ := ih hs rfl
      exact ⟨l, List.mem_cons_of_mem _ hl, hh⟩
    · exact ⟨_, List.mem_cons_self .., by simp [Document.isHeader, h]⟩
    all_goals simp at h

theorem tagLines_ok (h : tagLines n stage ls = .ok doc) :
    doc.map (·.text) = ls ∧ ∃ stage', Reads stage doc stage' ∧ stage' ≠ .beforeMarker := by
  induction ls generalizing n stage doc with
  | nil =>
    simp only [tagLines] at h
    split at h
    · cases h
    · cases h; exact ⟨rfl, stage, .nil _, by assumption⟩
  | cons raw ls ih =>
    simp only [tagLines, bind, Except.bind] at h
    cases ht : tagLine n stage raw with
    | error f => simp [ht] at h
    | ok r =>
      obtain ⟨tag, s⟩ := r
      simp only [ht] at h
      cases hr : tagLines (n + 1) s ls with
      | error f => simp [hr] at h
      | ok rest =>
        simp only [hr, pure, Except.pure, Except.ok.injEq] at h
        subst h
        obtain ⟨hm, stage', hreads, hne⟩ := ih hr
        exact ⟨by simp [hm], stage', .cons (tagLine_ok_iff.1 ht) hreads, hne⟩

theorem exists_tagLines (h : reach stage ls = some stage') (hne : stage' ≠ .beforeMarker) (n : Nat) :
    ∃ doc, tagLines n stage ls = .ok doc := by
  induction ls generalizing n stage with
  | nil => cases h; exact ⟨[], by simp [tagLines, hne]⟩
  | cons raw ls ih =>
    rw [reach_cons, Option.bind_eq_some_iff] at h
    obtain ⟨s, ha, hr⟩ := h
    obtain ⟨tag, ht⟩ := after?_eq_some.1 ha
    obtain ⟨doc, hd⟩ := ih hr (n + 1)
    have hn : tagLine n stage raw = .ok (tag, s) := tagLine_ok_iff.2 ht
    exact ⟨⟨raw, tag⟩ :: doc, by simp [tagLines, hn, hd, bind, Except.bind, pure, Except.pure]⟩

/-- The lines of a file: a newline at the end of the text starts no further line. -/
def fileLines (text : String) : List String :=
  if (Text.lines text).getLast? = some "" then (Text.lines text).dropLast else Text.lines text

theorem fileLines_eq {ls : List String} (h : Text.lines text = ls ++ [""]) : fileLines text = ls := by
  rw [fileLines, h, List.getLast?_concat, if_pos rfl, List.dropLast_concat]

theorem parse_eq_ok : Document.parse text = .ok doc ↔
    ∃ full, tagLines 1 .beforeMarker (Text.lines text) = .ok full ∧ dropFinalEmpty full = doc := by
  unfold Document.parse
  cases tagLines 1 .beforeMarker (Text.lines text) <;> simp [Except.map]

theorem parse_ok (h : Document.parse text = .ok doc) :
    doc.map (·.text) = fileLines text ∧ ∃ stage, Reads .beforeMarker doc stage ∧ stage ≠ .beforeMarker := by
  obtain ⟨full, ht, rfl⟩ := parse_eq_ok.1 h
  obtain ⟨hm, stage, hreads, hne⟩ := tagLines_ok ht
  unfold dropFinalEmpty fileLines
  rw [← hm, List.getLast?_map]
  cases hlast : full.getLast? with
  | none => exact ⟨by simp, stage, by simpa using hreads, hne⟩
  | some l =>
    obtain ⟨init, rfl⟩ := List.getLast?_eq_some_iff.1 hlast
    by_cases hl : l.text = ""
    · have htag : l.tag = .blank := (hreads.blank_iff (by simp)).2 (by rw [hl]; rfl)
      have hl' : l = ⟨"", .blank⟩ := by rw [← hl, ← htag]
      obtain ⟨s, hinit, hrest⟩ := reads_append.1 hreads
      have hs : stage = s := hrest.blank_stays htag
      subst hl'
      exact ⟨by simp, stage, by simpa [hs] using hinit, hne⟩
    · have hl' : l ≠ ⟨"", .blank⟩ := fun e => hl (by rw [e])
      exact ⟨by simp [hl, hl'], stage, by simpa [hl'] using hreads, hne⟩

/-- A text parses if its lines with something on them follow the layout. -/
theorem parse_ok_iff : (∃ doc, Document.parse text = .ok doc) ↔
    ∃ stage, reach .beforeMarker (Text.solid text.toList) = some stage ∧ stage ≠ .beforeMarker := by
  rw [← reach_lines]
  constructor
  · rintro ⟨doc, h⟩
    obtain ⟨full, ht, -⟩ := parse_eq_ok.1 h
    obtain ⟨hm, stage, hreads, hne⟩ := tagLines_ok ht
    exact ⟨stage, hm ▸ hreads.reach, hne⟩
  · rintro ⟨stage, h, hne⟩
    obtain ⟨doc, hd⟩ := exists_tagLines h hne 1
    exact ⟨dropFinalEmpty doc, by simp [Document.parse, hd, Except.map]⟩

end Tags

section Place

/-- Where an import goes: at the first statement, or behind the last line of the header where no
statement stands. -/
inductive ImportPlace : Document → Nat → Prop where
  | statement {pre post : Document} {l : Line} (body : l.tag = .body) (first : ∀ x ∈ pre, x.tag ≠ .body) :
      ImportPlace (pre ++ l :: post) pre.length
  | header {pre post : Document} {l : Line} (none : ∀ x ∈ pre ++ l :: post, x.tag ≠ .body)
      (header : Document.isHeader l = true) (last : ∀ x ∈ post, Document.isHeader x = false) :
      ImportPlace (pre ++ l :: post) (pre.length + 1)

theorem split_of_findIdx? {p : Line → Bool} {i : Nat} (h : doc.findIdx? p = some i) :
    ∃ pre l post, doc = pre ++ l :: post ∧ pre.length = i ∧ p l = true ∧ ∀ x ∈ pre, p x = false := by
  obtain ⟨hi, hp, hpre⟩ := List.findIdx?_eq_some_iff_getElem.1 h
  refine ⟨doc.take i, doc[i], doc.drop (i + 1), ?_, by simp; omega, hp, fun x hx => ?_⟩
  · rw [List.getElem_cons_drop, List.take_append_drop]
  · obtain ⟨j, hj, rfl⟩ := List.mem_take_iff_getElem.1 hx
    simpa using hpre j (by omega)

theorem Reads.importPlace (h : Reads .beforeMarker doc stage) (hs : stage ≠ .beforeMarker) :
    ImportPlace doc doc.importPlace := by
  unfold Document.importPlace Document.firstStatement?
  cases hf : doc.findIdx? (·.tag = .body) with
  | some i =>
    obtain ⟨pre, l, post, rfl, rfl, hl, hpre⟩ := split_of_findIdx? hf
    exact .statement (by simpa using hl) (by simpa using hpre)
  | none =>
    have hnone : ∀ x ∈ doc, x.tag ≠ .body := by simpa using hf
    obtain ⟨x, hx, hh⟩ := h.exists_header hs
    unfold Document.headerEnd
    cases hr : doc.reverse.findIdx? Document.isHeader with
    | none => simp [List.findIdx?_eq_none_iff] at hr; simp [hr x hx] at hh
    | some k =>
      obtain ⟨pre, l, post, hdoc, rfl, hl, hpre⟩ := split_of_findIdx? hr
      obtain rfl : doc = post.reverse ++ l :: pre.reverse := by
        rw [← List.reverse_reverse doc, hdoc]; simp
      have hlen : (post.reverse ++ l :: pre.reverse).length - 1 - pre.length + 1 =
          post.reverse.length + 1 := by simp
      simp only [Option.getD_none, hlen]
      exact .header hnone hl (by simpa using hpre)

theorem take_past (pre post : Document) (l : Line) :
    (pre ++ l :: post).take (pre.length + 1) = pre ++ [l] := by
  simp [List.take_append]

theorem drop_past (pre post : Document) (l : Line) : (pre ++ l :: post).drop (pre.length + 1) = post := by
  simp [List.drop_append]

/-- An import inserted at its place stands in the header, and none stands behind it. -/
theorem Reads.split {i : Nat} (h : Reads .beforeMarker doc stage) (hi : ImportPlace doc i) :
    Route.reach .beforeMarker ((doc.take i).map (·.text)) = some .header ∧
      ∀ l ∈ doc.drop i, isSolid l.text = true → isImport (stripped l.text) = false := by
  cases hi with
  | @statement pre post l body first =>
    rw [List.take_left, List.drop_left]
    obtain ⟨s, hpre, hrest⟩ := reads_append.1 h
    cases hrest with
    | @cons _ s' _ _ _ line rest =>
      have hb : s ≠ .body := hpre.ne_body (by simp) first
      rcases tagLine_cases line with ⟨h, -⟩ | ⟨-, ⟨h, -⟩ | ⟨h, -⟩ | ⟨h, -⟩ | ⟨-, hm, rfl, himp⟩⟩
      · simp [h] at body
      · simp [h] at body
      · simp [h] at body
      · simp [h] at body
      · refine ⟨?_, fun x hx hsolid => ?_⟩
        · rw [hpre.reach]
          cases s <;> simp_all
        · rcases List.mem_cons.1 hx with rfl | hx
          · exact himp
          · exact rest.no_import hx hsolid
  | @header pre post l none header last =>
    rw [take_past, drop_past]
    have h' := h
    rw [← List.singleton_append, ← List.append_assoc] at h
    obtain ⟨s, hpre, hpost⟩ := reads_append.1 h
    obtain ⟨s₀, -, hl⟩ := reads_append.1 hpre
    refine ⟨?_, fun x hx hsolid => ?_⟩
    · rw [hpre.reach]
      rcases tagLine_cases (reads_singleton.1 hl) with ⟨h, -⟩ | ⟨-, ⟨-, -, h⟩ | ⟨-, -, h⟩ | ⟨-, -, h, -⟩ | ⟨h, -⟩⟩
      · simp [Document.isHeader, h] at header
      · rw [h]
      · rw [h]
      · rw [h]
      · simp [Document.isHeader, h] at header
    · have hmem : x ∈ pre ++ l :: post := by simp [hx]
      have htag : x.tag = .blank := by
        have h1 := none x hmem
        have h2 := last x hx
        simp only [Document.isHeader, Bool.or_eq_false_iff, decide_eq_false_iff_not] at h2
        cases ht : x.tag <;> simp_all
      rw [(h'.blank_iff hmem).1 htag] at hsolid
      cases hsolid

end Place

end Scaffold.Route
