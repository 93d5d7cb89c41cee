import Scaffold.Proofs.Route.Layout

/-!
# The layout as a grammar

`Headed` and `Begun` say what a route file looks like as a whole: blank lines, the opening tag, a header, and
then statements or nothing. `reads_iff` ties them to the stages in which the lines are read one by one, and
`parse_layout` says of every text whether it parses, how its lines are tagged, and otherwise which line is the
first that cannot stand where it does.
-/

namespace Scaffold.Route
open Text (isSolid stripped)

/-- A line with nothing on it. -/
def IsBlank (l : Line) : Prop :=
  l.tag = .blank ∧ isSolid l.text = false

/-- The line with the opening tag. -/
def Opens (l : Line) : Prop :=
  l.tag = .marker ∧ Text.startsWith (stripped l.text) openTag = true

/-- A line between the opening tag and the first statement. -/
def InHeader (l : Line) : Prop :=
  IsBlank l ∨ l.tag = .directive ∧ isDirective (stripped l.text) = true ∨
    l.tag = .import_ ∧ isImport (stripped l.text) = true

/-- The first statement. -/
def Begins (l : Line) : Prop :=
  l.tag = .body ∧ isSolid l.text = true ∧ isDirective (stripped l.text) = false ∧ isImport (stripped l.text) = false

/-- A line behind the first statement, where a directive is a statement too. -/
def InBody (l : Line) : Prop :=
  IsBlank l ∨ l.tag = .body ∧ isSolid l.text = true ∧ isImport (stripped l.text) = false

/-- A file without statements. -/
inductive Headed : Document → Prop where
  | intro {lead head : Document} {opening : Line} (blank : ∀ l ∈ lead, IsBlank l) (opens : Opens opening)
      (header : ∀ l ∈ head, InHeader l) : Headed (lead ++ opening :: head)

/-- A file with statements. -/
inductive Begun : Document → Prop where
  | intro {head more : Document} {first : Line} (headed : Headed head) (begins : Begins first)
      (body : ∀ l ∈ more, InBody l) : Begun (head ++ first :: more)

/-- The line that spoils a file first, in words of its flaw; where nothing stands, the opening tag is missing. -/
inductive Offends : List String → RouteFlaw → Prop where
  | unopened {lead rest : List String} {raw : String} (blank : ∀ l ∈ lead, isSolid l = false)
      (solid : isSolid raw = true) (other : Text.startsWith (stripped raw) openTag = false) :
      Offends (lead ++ raw :: rest) (.markerExpected (lead.length + 1))
  | late {doc : Document} {rest : List String} {raw : String} (begun : Begun doc)
      (late : isImport (stripped raw) = true) :
      Offends (doc.map (·.text) ++ raw :: rest) (.lateImport (doc.length + 1))
  | empty {ls : List String} (blank : ∀ l ∈ ls, isSolid l = false) : Offends ls .noMarker

variable {stage stage' : Stage} {doc : Document} {ls : List String} {l : Line} {raw text : String} {tag : Tag}
  {n : Nat} {flaw : RouteFlaw}

section Line

theorem isSolid_of_startsWith {start : String} (h : Text.startsWith (stripped raw) start = true) (hne : start ≠ "") :
    isSolid raw = true := by
  rw [isSolid, Bool.not_eq_true', Bool.eq_false_iff, ne_eq, String.isEmpty_iff]
  intro hnil
  rw [Text.startsWith, hnil, List.isPrefixOf_iff_prefix, String.toList_empty, List.prefix_nil,
    String.toList_eq_nil_iff] at h
  exact hne h

theorem isSolid_of_isImport (h : isImport (stripped raw) = true) : isSolid raw = true :=
  isSolid_of_startsWith h (by decide)

theorem isSolid_of_isDirective (h : isDirective (stripped raw) = true) : isSolid raw = true :=
  isSolid_of_startsWith (Bool.and_eq_true_iff.1 h).1 (by decide)

theorem isEmpty_eq (raw : String) : (stripped raw).isEmpty = !isSolid raw := by
  rw [isSolid, Bool.not_not]

theorem tagLine_before : tagLine n .beforeMarker raw =
    if isSolid raw = true then
      if Text.startsWith (stripped raw) openTag = true then .ok (.marker, .header) else .error (.markerExpected n)
    else .ok (.blank, .beforeMarker) := by
  cases h : isSolid raw <;> simp [tagLine, isEmpty_eq, h]

theorem tagLine_header : tagLine n .header raw =
    if isSolid raw = true then
      if isDirective (stripped raw) = true then .ok (.directive, .header)
      else if isImport (stripped raw) = true then .ok (.import_, .header) else .ok (.body, .body)
    else .ok (.blank, .header) := by
  cases h : isSolid raw <;> simp [tagLine, isEmpty_eq, h]

theorem tagLine_body : tagLine n .body raw =
    if isSolid raw = true then
      if isImport (stripped raw) = true then .error (.lateImport n) else .ok (.body, .body)
    else .ok (.blank, .body) := by
  cases h : isSolid raw <;> simp [tagLine, isEmpty_eq, h]

theorem isBlank_iff : IsBlank l ↔ tagLine 0 .beforeMarker l.text = .ok (l.tag, .beforeMarker) := by
  rw [IsBlank, tagLine_before]
  split
  · next h => split <;> simp [h]
  · next h => simp [h, eq_comm]

theorem opens_iff : Opens l ↔ tagLine 0 .beforeMarker l.text = .ok (l.tag, .header) := by
  rw [Opens, tagLine_before]
  split
  · split
    · next h => simp [h, eq_comm]
    · next h => simp [h]
  · next h =>
    have hno : Text.startsWith (stripped l.text) openTag ≠ true := fun hs => h (isSolid_of_startsWith hs (by decide))
    simp [hno]

theorem inHeader_iff : InHeader l ↔ tagLine 0 .header l.text = .ok (l.tag, .header) := by
  have hdirective := @isSolid_of_isDirective l.text
  have himport := @isSolid_of_isImport l.text
  have hapart := @not_isImport_of_isDirective (stripped l.text)
  rw [InHeader, IsBlank, tagLine_header]
  grind

theorem begins_iff : Begins l ↔ tagLine 0 .header l.text = .ok (l.tag, .body) := by
  rw [Begins, tagLine_header]
  grind

theorem inBody_iff : InBody l ↔ tagLine 0 .body l.text = .ok (l.tag, .body) := by
  rw [InBody, IsBlank, tagLine_body]
  grind

theorem tagLine_error (h : tagLine n stage raw = .error flaw) :
    stage = .beforeMarker ∧ isSolid raw = true ∧ Text.startsWith (stripped raw) openTag = false ∧
        flaw = .markerExpected n ∨
      stage = .body ∧ isImport (stripped raw) = true ∧ flaw = .lateImport n := by
  cases stage with
  | beforeMarker => rw [tagLine_before] at h; grind
  | header => rw [tagLine_header] at h; grind
  | body => rw [tagLine_body] at h; grind

end Line

section Reads

theorem reads_of_forall (h : ∀ l ∈ doc, tagLine 0 stage l.text = .ok (l.tag, stage)) : Reads stage doc stage := by
  induction doc with
  | nil => exact .nil stage
  | cons l doc ih =>
    exact .cons (h l (List.mem_cons_self ..)) (ih fun x hx => h x (List.mem_cons_of_mem _ hx))

/-- Lines stay in one stage, or a first one of them leads to another. -/
theorem Reads.leaves (h : Reads stage doc stage') :
    stage' = stage ∧ (∀ l ∈ doc, tagLine 0 stage l.text = .ok (l.tag, stage)) ∨
      ∃ pre l post s, doc = pre ++ l :: post ∧ (∀ x ∈ pre, tagLine 0 stage x.text = .ok (x.tag, stage)) ∧
        tagLine 0 stage l.text = .ok (l.tag, s) ∧ s ≠ stage ∧ Reads s post stage' := by
  induction h with
  | nil => exact .inl ⟨rfl, by simp⟩
  | @cons stage s stage' l doc line rest ih =>
    by_cases hs : s = stage
    · subst hs
      rcases ih with ⟨rfl, hall⟩ | ⟨pre, x, post, s', rfl, hpre, hx, hne, hpost⟩
      · exact .inl ⟨rfl, List.forall_mem_cons.2 ⟨line, hall⟩⟩
      · exact .inr ⟨l :: pre, x, post, s', rfl, List.forall_mem_cons.2 ⟨line, hpre⟩, hx, hne, hpost⟩
    · exact .inr ⟨[], l, doc, s, rfl, by simp, line, hs, rest⟩

theorem reads_body_iff : Reads .body doc stage ↔ stage = .body ∧ ∀ l ∈ doc, InBody l := by
  simp only [inBody_iff]
  constructor
  · intro h
    rcases h.leaves with hstay | ⟨pre, l, post, s, -, -, hl, hs, -⟩
    · exact hstay
    · rcases tagLine_cases hl with ⟨-, -, h⟩ | ⟨-, h | h | h | h⟩ <;> simp_all
  · rintro ⟨rfl, hall⟩
    exact reads_of_forall hall

theorem reads_header_iff : Reads .header doc stage ↔ stage = .header ∧ (∀ l ∈ doc, InHeader l) ∨
    stage = .body ∧ ∃ head first more, doc = head ++ first :: more ∧ (∀ l ∈ head, InHeader l) ∧ Begins first ∧
      ∀ l ∈ more, InBody l := by
  simp only [inHeader_iff, begins_iff]
  constructor
  · intro h
    rcases h.leaves with hstay | ⟨pre, l, post, s, rfl, hpre, hl, hs, hpost⟩
    · exact .inl hstay
    · obtain rfl : s = .body := by
        rcases tagLine_cases hl with ⟨-, -, h⟩ | ⟨-, h | h | h | h⟩ <;> simp_all
      obtain ⟨rfl, hbody⟩ := reads_body_iff.1 hpost
      exact .inr ⟨rfl, pre, l, post, rfl, hpre, hl, hbody⟩
  · rintro (⟨rfl, hall⟩ | ⟨rfl, head, first, more, rfl, hhead, hfirst, hmore⟩)
    · exact reads_of_forall hall
    · exact reads_append.2 ⟨_, reads_of_forall hhead, .cons hfirst (reads_body_iff.2 ⟨rfl, hmore⟩)⟩

/-- The stage that a file ends in says what it looks like. -/
theorem reads_iff : Reads .beforeMarker doc stage ↔ stage = .beforeMarker ∧ (∀ l ∈ doc, IsBlank l) ∨
    stage = .header ∧ Headed doc ∨ stage = .body ∧ Begun doc := by
  constructor
  · intro h
    rcases h.leaves with ⟨hs, hstay⟩ | ⟨lead, l, post, s, rfl, hlead, hl, hs, hpost⟩
    · exact .inl ⟨hs, fun l hl => isBlank_iff.2 (hstay l hl)⟩
    · obtain rfl : s = .header := by
        rcases tagLine_cases hl with ⟨-, -, h⟩ | ⟨-, h | h | h | h⟩ <;> simp_all
      have hblank : ∀ x ∈ lead, IsBlank x := fun x hx => isBlank_iff.2 (hlead x hx)
      rcases reads_header_iff.1 hpost with ⟨rfl, hheader⟩ | ⟨rfl, head, first, more, rfl, hhead, hfirst, hmore⟩
      · exact .inr (.inl ⟨rfl, .intro hblank (opens_iff.2 hl) hheader⟩)
      · refine .inr (.inr ⟨rfl, ?_⟩)
        rw [← List.cons_append, ← List.append_assoc]
        exact .intro (.intro hblank (opens_iff.2 hl) hhead) hfirst hmore
  · have hheaded : ∀ {doc}, Headed doc → Reads .beforeMarker doc .header := by
      rintro _ ⟨hblank, hopens, hheader⟩
      exact reads_append.2 ⟨_, reads_of_forall fun l hl => isBlank_iff.1 (hblank l hl),
        .cons (opens_iff.1 hopens) (reads_header_iff.2 (.inl ⟨rfl, hheader⟩))⟩
    rintro (⟨rfl, hblank⟩ | ⟨rfl, h⟩ | ⟨rfl, ⟨h, hfirst, hbody⟩⟩)
    · exact reads_of_forall fun l hl => isBlank_iff.1 (hblank l hl)
    · exact hheaded h
    · exact reads_append.2 ⟨_, hheaded h, .cons (begins_iff.1 hfirst) (reads_body_iff.2 ⟨rfl, hbody⟩)⟩

end Reads

section Parse

theorem tagLines_cons {r : Tag × Stage} (h : tagLine n stage raw = .ok r) (ls : List String) :
    tagLines n stage (raw :: ls) = (tagLines (n + 1) r.2 ls).map (⟨raw, r.1⟩ :: ·) := by
  simp only [tagLines, h, bind, Except.bind]
  cases tagLines (n + 1) r.2 ls <;> rfl

/-- Behind lines that have been read, reading goes on in the stage they end in. -/
theorem tagLines_append (h : Reads stage doc stage') (n : Nat) (ls : List String) :
    tagLines n stage (doc.map (·.text) ++ ls) = (tagLines (n + doc.length) stage' ls).map (doc ++ ·) := by
  induction h generalizing n with
  | nil stage =>
    rw [List.map_nil, List.nil_append, List.length_nil, Nat.add_zero]
    cases tagLines n stage ls <;> rfl
  | cons line _ ih =>
    rw [List.map_cons, List.cons_append, tagLines_cons (tagLine_ok_iff.2 line), ih, List.length_cons,
      Nat.add_right_comm n 1, Nat.add_assoc]
    cases tagLines _ _ ls <;> rfl

theorem tagLines_texts (h : Reads stage doc stage') (n : Nat) :
    tagLines n stage (doc.map (·.text)) = if stage' = .beforeMarker then .error .noMarker else .ok doc := by
  have hread := tagLines_append h n []
  rw [List.append_nil] at hread
  rw [hread, tagLines]
  split
  · rfl
  · rw [Except.map, List.append_nil]

theorem tagLines_eq_ok : tagLines n stage ls = .ok doc ↔
    doc.map (·.text) = ls ∧ ∃ stage', Reads stage doc stage' ∧ stage' ≠ .beforeMarker := by
  refine ⟨tagLines_ok, ?_⟩
  rintro ⟨rfl, stage', hreads, hne⟩
  rw [tagLines_texts hreads, if_neg hne]

/-- Reading stops at the first line that has no tag, or at the end of a file without an opening tag. -/
theorem tagLines_eq_error : tagLines n stage ls = .error flaw ↔
    (∃ doc raw rest s, ls = doc.map (·.text) ++ raw :: rest ∧ Reads stage doc s ∧
      tagLine (n + doc.length) s raw = .error flaw) ∨
    flaw = .noMarker ∧ ∃ doc, ls = doc.map (·.text) ∧ Reads stage doc .beforeMarker := by
  constructor
  · intro h
    induction ls generalizing n stage with
    | nil =>
      simp only [tagLines] at h
      split at h
      · next hs =>
        cases h
        exact .inr ⟨rfl, [], rfl, hs ▸ .nil _⟩
      · cases h
    | cons raw ls ih =>
      cases ht : tagLine n stage raw with
      | error f =>
        simp only [tagLines, ht, bind, Except.bind, Except.error.injEq] at h
        exact .inl ⟨[], raw, ls, stage, rfl, .nil _, h ▸ ht⟩
      | ok r =>
        obtain ⟨tag, s⟩ := r
        have hline : tagLine 0 stage raw = .ok (tag, s) := tagLine_ok_iff.1 ht
        rw [tagLines_cons ht] at h
        cases hrest : tagLines (n + 1) s ls with
        | ok doc => rw [hrest] at h; cases h
        | error f =>
          rw [hrest] at h
          cases h
          rcases ih hrest with ⟨doc, raw', rest, s', rfl, hreads, hstop⟩ | ⟨rfl, doc, rfl, hreads⟩
          · refine .inl ⟨⟨raw, tag⟩ :: doc, raw', rest, s', rfl, .cons hline hreads, ?_⟩
            rwa [List.length_cons, Nat.add_comm doc.length, ← Nat.add_assoc]
          · exact .inr ⟨rfl, ⟨raw, tag⟩ :: doc, rfl, .cons hline hreads⟩
  · rintro (⟨doc, raw, rest, s, rfl, hreads, hstop⟩ | ⟨rfl, doc, rfl, hreads⟩)
    · rw [tagLines_append hreads, tagLines, hstop]
      rfl
    · rw [tagLines_texts hreads, if_pos rfl]

theorem offends_iff : tagLines 1 .beforeMarker ls = .error flaw ↔ Offends ls flaw := by
  have hblank : ∀ {ls : List String}, (∀ l ∈ ls, isSolid l = false) →
      Reads .beforeMarker (ls.map (⟨·, .blank⟩)) .beforeMarker :=
    fun h => reads_iff.2 (.inl ⟨rfl, by simpa [IsBlank] using h⟩)
  have htexts : ∀ ls : List String, (ls.map (⟨·, .blank⟩ : String → Line)).map (·.text) = ls :=
    fun ls => by rw [List.map_map]; exact List.map_id' _
  rw [tagLines_eq_error]
  constructor
  · rintro (⟨doc, raw, rest, s, rfl, hreads, hstop⟩ | ⟨rfl, doc, rfl, hreads⟩)
    · rw [Nat.add_comm] at hstop
      rcases tagLine_error hstop with ⟨rfl, hsolid, hother, rfl⟩ | ⟨rfl, hlate, rfl⟩
      · have hall : ∀ l ∈ doc, IsBlank l := by simpa using reads_iff.1 hreads
        rw [← List.length_map (·.text)]
        exact .unopened (List.forall_mem_map.2 fun l hl => (hall l hl).2) hsolid hother
      · have hbegun : Begun doc := by simpa using reads_iff.1 hreads
        exact .late hbegun hlate
    · have hall : ∀ l ∈ doc, IsBlank l := by simpa using reads_iff.1 hreads
      exact .empty (List.forall_mem_map.2 fun l hl => (hall l hl).2)
  · rintro (@⟨lead, rest, raw, hlead, hsolid, hother⟩ | @⟨doc, rest, raw, hbegun, hlate⟩ | hall)
    · refine .inl ⟨lead.map (⟨·, .blank⟩), raw, rest, .beforeMarker, by rw [htexts], hblank hlead, ?_⟩
      simp [tagLine_before, hsolid, hother, Nat.add_comm]
    · refine .inl ⟨doc, raw, rest, .body, rfl, reads_iff.2 (.inr (.inr ⟨rfl, hbegun⟩)), ?_⟩
      simp [tagLine_body, isSolid_of_isImport hlate, hlate, Nat.add_comm]
    · exact .inr ⟨rfl, ls.map (⟨·, .blank⟩), (htexts ls).symm, hblank hall⟩

/-- A text parses if its lines follow the grammar. All of them keep their text and have the tag of their place,
save that an empty last line, as a final newline leaves it, is dropped. Otherwise the first line that cannot
stand where it does is named. -/
theorem parse_layout (text : String) :
    (∀ doc, Document.parse text = .ok doc ↔
      ∃ full, full.map (·.text) = Text.lines text ∧ (Headed full ∨ Begun full) ∧ dropFinalEmpty full = doc) ∧
    ∀ flaw, Document.parse text = .error flaw ↔ Offends (Text.lines text) flaw := by
  refine ⟨fun doc => ?_, fun flaw => ?_⟩
  · have hends : ∀ full : Document, (∃ stage, Reads .beforeMarker full stage ∧ stage ≠ .beforeMarker) ↔
        Headed full ∨ Begun full := fun full => by
      simp only [reads_iff]
      constructor
      · rintro ⟨stage, h, hne⟩
        rcases h with ⟨hs, -⟩ | ⟨-, h⟩ | ⟨-, h⟩
        · exact absurd hs hne
        · exact .inl h
        · exact .inr h
      · rintro (h | h)
        · exact ⟨.header, .inr (.inl ⟨rfl, h⟩), by simp⟩
        · exact ⟨.body, .inr (.inr ⟨rfl, h⟩), by simp⟩
    simp only [parse_eq_ok, tagLines_eq_ok, hends, and_assoc]
  · rw [← offends_iff, Document.parse]
    cases tagLines 1 .beforeMarker (Text.lines text) <;> simp [Except.map]

/-- The empty line behind a final newline is a line of the text and follows the grammar, but is not kept. -/
theorem parse_drops : ∃ full doc, full.map (·.text) = Text.lines "<?php\n" ∧ Headed full ∧
    Document.parse "<?php\n" = .ok doc ∧ doc.map (·.text) ≠ Text.lines "<?php\n" := by
  refine ⟨[⟨"<?php", .marker⟩, ⟨"", .blank⟩], [⟨"<?php", .marker⟩], by decide +kernel, ?_, by decide +kernel,
    by decide +kernel⟩
  exact @Headed.intro [] _ _ (by simp) ⟨rfl, by decide +kernel⟩ (by simp [InHeader, IsBlank]; decide +kernel)

end Parse

end Scaffold.Route
