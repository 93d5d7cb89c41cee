import Scaffold.Proofs.Route.Grammar
import Scaffold.Proofs.Route.Reread

/-!
# What is rendered parses to what was rendered

Edits set the tags of the lines that they add, and parsing works all tags out again. `Tagged` is where the two
meet: the tags of a document are those that reading its lines gives. A parsed text is tagged so, every edit keeps
it so, and a document that is tagged so is what its text parses to.
-/

namespace Scaffold.Route
open Text (isSolid stripped)

/-- One edit of a document. -/
inductive Change where
  | import_ (statement : String)
  | block (text : String)

namespace Change

def apply (doc : Document) : Change → Document
  | import_ statement => (doc.withImport statement).1
  | block text => doc.withBlock text

/-- An import is one line with an import on it. In front of a first statement a block must not start with a
directive. -/
def Fits (doc : Document) : Change → Prop
  | import_ statement => '\n' ∉ statement.toList ∧ isImport (stripped statement) = true
  | block text => (∀ l ∈ doc, l.tag ≠ .body) →
      ∀ raw, (Document.keptLines text).head? = some raw → isDirective (stripped raw) = false

end Change

/-- The documents that edits lead to from a parsed text. -/
inductive Reached : Document → Prop where
  | parsed {text : String} {doc : Document} (parse : Document.parse text = .ok doc) : Reached doc
  | changed {doc : Document} {change : Change} (before : Reached doc) (fits : change.Fits doc) :
      Reached (change.apply doc)

/-- The tags of a document are those that its lines are read with, one by one. -/
structure Tagged (doc : Document) : Prop where
  newline : ∀ l ∈ doc, '\n' ∉ l.text.toList
  reads : ∃ stage, Reads .beforeMarker doc stage ∧ stage ≠ .beforeMarker

variable {stage stage' : Stage} {doc : Document} {l : Line} {text statement block : String} {i : Nat}

section Stages

theorem reads_blank (stage : Stage) : Reads stage [⟨"", .blank⟩] stage := by
  cases stage <;> exact reads_singleton.2 (by decide)

theorem Reads.cut (h : Reads .beforeMarker doc stage) (hi : ImportPlace doc i) :
    Reads .beforeMarker (doc.take i) .header ∧ Reads .header (doc.drop i) stage := by
  obtain ⟨hhead, -⟩ := h.split hi
  rw [← List.take_append_drop i doc] at h
  obtain ⟨s, hbefore, hbehind⟩ := reads_append.1 h
  rw [hbefore.reach, Option.some.injEq] at hhead
  subst hhead
  exact ⟨hbefore, hbehind⟩

theorem Reads.dropTrailingBlanks (h : Reads stage doc stage') :
    Reads stage (Document.dropTrailingBlanks doc) stage' := by
  show Reads stage (doc.rdropWhile (·.tag = .blank)) stage'
  induction doc using List.reverseRecOn with
  | nil => exact h
  | append_singleton doc l ih =>
    rw [List.rdropWhile_concat]
    split
    · next hblank =>
      obtain ⟨s, hdoc, hl⟩ := reads_append.1 h
      obtain rfl : stage' = s := hl.blank_stays (by simpa using hblank)
      exact ih hdoc
    · exact h

theorem Reads.no_statement (h : Reads .beforeMarker doc .header) (hl : l ∈ doc) : l.tag ≠ .body := by
  have hheaded : Headed doc := by simpa using reads_iff.1 h
  obtain ⟨hlead, hopens, hhead⟩ := hheaded
  rcases List.mem_append.1 hl with hl | hl
  · simp [(hlead l hl).1]
  · rcases List.mem_cons.1 hl with rfl | hl
    · simp [hopens.1]
    · rcases hhead l hl with ⟨htag, -⟩ | ⟨htag, -⟩ | ⟨htag, -⟩ <;> simp [htag]

/-- Lines that are no imports are statements behind the opening tag, if the first of them is no directive there. -/
theorem reads_statements {kept : List String} (hs : stage ≠ .beforeMarker)
    (hkept : ∀ raw ∈ kept, isSolid raw = true ∧ isImport (stripped raw) = false)
    (hfirst : stage = .header → ∀ raw, kept.head? = some raw → isDirective (stripped raw) = false) :
    ∃ stage', Reads stage (kept.map (⟨·, .body⟩)) stage' ∧ stage' ≠ .beforeMarker := by
  have hbody : ∀ l ∈ kept.map (⟨·, .body⟩), InBody l :=
    List.forall_mem_map.2 fun raw hraw => .inr ⟨rfl, hkept raw hraw⟩
  cases stage with
  | beforeMarker => exact absurd rfl hs
  | body => exact ⟨.body, reads_body_iff.2 ⟨rfl, hbody⟩, by simp⟩
  | header =>
    cases kept with
    | nil => exact ⟨.header, .nil _, by simp⟩
    | cons raw more =>
      obtain ⟨hsolid, himport⟩ := hkept raw (List.mem_cons_self ..)
      have hbegins : Begins ⟨raw, .body⟩ := ⟨rfl, hsolid, hfirst rfl raw rfl, himport⟩
      rw [List.map_cons, List.forall_mem_cons] at hbody
      exact ⟨.body, .cons (begins_iff.1 hbegins) (reads_body_iff.2 ⟨rfl, hbody.2⟩), by simp⟩

end Stages

namespace Tagged

theorem of_parse (h : Document.parse text = .ok doc) : Tagged doc := by
  obtain ⟨hlines, hreads⟩ := parse_ok h
  refine ⟨fun l hl => ?_, hreads⟩
  exact (mem_lines (mem_lines_of_mem_fileLines (hlines ▸ List.mem_map_of_mem hl))).1

theorem withImport (h : Tagged doc) (hnewline : '\n' ∉ statement.toList)
    (himport : isImport (stripped statement) = true) : Tagged (doc.withImport statement).1 := by
  obtain ⟨stage, hreads, hs⟩ := h.reads
  obtain ⟨hbefore, hbehind⟩ := hreads.cut (hreads.importPlace hs)
  unfold Document.withImport
  split
  · exact h
  · refine ⟨fun l hl => ?_, stage, reads_append.2 ⟨.header, hbefore, .cons ?_ hbehind⟩, hs⟩
    · rcases List.mem_append.1 hl with hl | hl
      · exact h.newline l (List.mem_of_mem_take hl)
      · rcases List.mem_cons.1 hl with rfl | hl
        · exact hnewline
        · exact h.newline l (List.mem_of_mem_drop hl)
    · exact inHeader_iff.1 (.inr (.inr ⟨rfl, himport⟩))

theorem withBlock (h : Tagged doc) (hfirst : (∀ l ∈ doc, l.tag ≠ .body) →
    ∀ raw, (Document.keptLines block).head? = some raw → isDirective (stripped raw) = false) :
    Tagged (doc.withBlock block) := by
  obtain ⟨stage, hreads, hs⟩ := h.reads
  have hkept : ∀ raw ∈ Document.keptLines block, isSolid raw = true ∧ isImport (stripped raw) = false :=
    fun raw hraw => ⟨isSolid_of_mem_keptLines hraw, isImport_of_mem_keptLines hraw⟩
  obtain ⟨stage', hbehind, hs'⟩ := reads_statements hs hkept fun hheader =>
    hfirst fun l hl => (hheader ▸ hreads).no_statement hl
  refine ⟨fun l hl => ?_, stage', ?_, hs'⟩
  · rcases List.mem_append.1 hl with hl | hl
    · exact h.newline l ((List.rdropWhile_prefix ..).subset hl)
    · rcases List.mem_cons.1 hl with rfl | hl
      · decide
      · obtain ⟨raw, hraw, rfl⟩ := List.mem_map.1 hl
        exact (mem_lines (List.mem_of_mem_filter hraw)).1
  · refine reads_append.2 ⟨stage, hreads.dropTrailingBlanks, ?_⟩
    exact reads_append.2 ⟨stage, reads_blank stage, hbehind⟩

theorem change {change : Change} (h : Tagged doc) (hfits : change.Fits doc) : Tagged (change.apply doc) := by
  cases change with
  | import_ statement => exact h.withImport hfits.1 hfits.2
  | block text => exact h.withBlock hfits

theorem of_reached (h : Reached doc) : Tagged doc := by
  induction h with
  | parsed parse => exact of_parse parse
  | changed _ fits ih => exact ih.change fits

theorem ne_nil (h : Tagged doc) : doc ≠ [] := by
  rintro rfl
  obtain ⟨stage, hreads, hs⟩ := h.reads
  cases hreads
  exact hs rfl

/-- The final newline of a rendered text leaves an empty line behind, which is dropped again. -/
theorem parse_render (h : Tagged doc) : Document.parse doc.render = .ok doc := by
  obtain ⟨stage, hreads, hs⟩ := h.reads
  have hlines : Text.lines doc.render = doc.map (·.text) ++ [""] :=
    Text.lines_joined (by simpa using h.ne_nil) (List.forall_mem_map.2 h.newline)
  refine parse_eq_ok.2 ⟨doc ++ [⟨"", .blank⟩], tagLines_eq_ok.2 ⟨?_, stage, ?_, hs⟩, ?_⟩
  · rw [List.map_append, hlines]
    rfl
  · exact reads_append.2 ⟨stage, hreads, reads_blank stage⟩
  · simp [dropFinalEmpty]

end Tagged

theorem render_of_parse (h : Document.parse text = .ok doc) :
    doc.render = if text.toList.getLast? = some '\n' then text else text ++ "\n" := by
  obtain ⟨hlines, -⟩ := parse_ok h
  have hne : fileLines text ≠ [] := hlines ▸ by simpa using (Tagged.of_parse h).ne_nil
  rw [Document.render, hlines]
  unfold fileLines at hne ⊢
  have hlast : (Text.lines text).getLast? = some "" ↔ text.toList = [] ∨ text.toList.getLast? = some '\n' := by
    rw [← Text.getLast?_splitAtChar, Text.lines, List.getLast?_map]
    simp
  by_cases hempty : (Text.lines text).getLast? = some ""
  · rw [if_pos hempty] at hne ⊢
    obtain ⟨ls, hls⟩ := List.getLast?_eq_some_iff.1 hempty
    rw [hls, List.dropLast_concat] at hne ⊢
    have htext := Text.joined_lines text
    rw [hls, Text.joined_concat hne] at htext
    rcases hlast.1 hempty with hnil | hnewline
    · have hchars := congrArg String.toList htext
      simp [hnil] at hchars
    · rw [if_pos hnewline, htext]
  · rw [if_neg hempty, Text.joined_lines, if_neg fun hnewline => hempty (hlast.2 (.inr hnewline))]

/-- However a document was reached from a parsed text, its text parses to it, with the same lines under the same
tags. A document that is not edited is rendered as the text that it was parsed from, with a newline at the end. -/
theorem parse_undoes_render :
    (∀ doc, Reached doc → Document.parse doc.render = .ok doc) ∧
    ∀ text doc, Document.parse text = .ok doc →
      doc.render = if text.toList.getLast? = some '\n' then text else text ++ "\n" :=
  ⟨fun _ h => (Tagged.of_reached h).parse_render, fun _ _ h => render_of_parse h⟩

theorem parse_undoes_render_edited :
    let text := "<?php\ndeclare(strict_types=1);\n\n \t"
    let doc : Document := [⟨"<?php", .marker⟩, ⟨"declare(strict_types=1);", .directive⟩, ⟨"", .blank⟩, ⟨" \t", .blank⟩]
    let edited : Document := [⟨"<?php", .marker⟩, ⟨"declare(strict_types=1);", .directive⟩, ⟨"  use B;", .import_⟩,
      ⟨"", .blank⟩, ⟨"Route::x();", .body⟩, ⟨"declare(ticks=1);", .body⟩]
    Document.parse text = .ok doc ∧ doc.render = text ++ "\n" ∧
      Reached edited ∧ Document.parse edited.render = .ok edited := by
  intro text doc edited
  let block := "use C;\n\nRoute::x();\ndeclare(ticks=1);"
  have hparse : Document.parse text = .ok doc := by decide +kernel
  have hfirst : (Document.keptLines block).head? = some "Route::x();" := by decide +kernel
  have himported : Reached (Change.apply doc (.import_ "  use B;")) :=
    .changed (.parsed hparse) ⟨by decide +kernel, by decide +kernel⟩
  have hedited : Change.apply (Change.apply doc (.import_ "  use B;")) (.block block) = edited := by decide +kernel
  have hreached : Reached edited := hedited ▸ .changed himported fun _ raw hraw => by
    rw [hfirst, Option.some.injEq] at hraw
    subst hraw
    decide +kernel
  have hrender : doc.render = text ++ "\n" :=
    (parse_undoes_render.2 text doc hparse).trans (if_neg (by decide +kernel))
  exact ⟨hparse, hrender, hreached, parse_undoes_render.1 edited hreached⟩

end Scaffold.Route
