import Scaffold.Proofs.Route.Insert

/-!
# What a merged text is read back as

The next merge reads what the last one wrote. `readBack_render` lists the lines that come back: those
of the old text, with the import between the header and the statements and the block behind them. So
the text parses again (`parse_reread`), keeps the lines and tokens that it had, and holds the tokens of
the block.
-/

namespace Scaffold.Route
open Text (isSolid stripped solid readBack)

variable {stage : Stage} {doc : Document} {text fqcn block token raw : String} {ls : List String} {i : Nat}

section Lines

theorem mem_lines (h : raw ∈ Text.lines text) : '\n' ∉ raw.toList ∧ raw.toList <:+: text.toList := by
  obtain ⟨piece, hp, rfl⟩ := List.mem_map.1 h
  rw [String.toList_ofList]
  exact ⟨Text.notMem_of_mem_splitAtChar hp, Text.infix_of_mem_splitAtChar hp⟩

theorem mem_lines_of_mem_fileLines (h : raw ∈ fileLines text) : raw ∈ Text.lines text := by
  unfold fileLines at h
  split at h
  · exact List.mem_of_mem_dropLast h
  · exact h

theorem filter_fileLines (text : String) : (fileLines text).filter isSolid = solid text.toList := by
  show _ = (Text.lines text).filter isSolid
  unfold fileLines
  split
  · next h =>
    obtain ⟨init, hinit⟩ := List.getLast?_eq_some_iff.1 h
    rw [hinit, List.dropLast_concat, List.filter_append]
    simp [isSolid, stripped, Text.strip, Text.dropEndWhile]
  · rfl

theorem readBack_line (hn : '\n' ∉ raw.toList) (hr : '\r' ∉ raw.toList) :
    readBack raw.toList = if isSolid raw then [raw] else [] := by
  rw [Text.readBack_eq_solid hr, Text.solid_of_notMem hn]

theorem readBack_lines (h : ∀ raw ∈ ls, '\n' ∉ raw.toList ∧ '\r' ∉ raw.toList) :
    ls.flatMap (fun l => readBack l.toList) = ls.filter isSolid := by
  induction ls with
  | nil => rfl
  | cons raw ls ih =>
    obtain ⟨hn, hr⟩ := h raw (List.mem_cons_self ..)
    rw [List.flatMap_cons, readBack_line hn hr, ih fun l hl => h l (List.mem_cons_of_mem _ hl),
      List.filter_cons]
    split <;> rfl

theorem filter_rdropWhile (ls : List String) :
    (ls.rdropWhile (fun l => !isSolid l)).filter isSolid = ls.filter isSolid := by
  induction ls using List.reverseRecOn with
  | nil => rfl
  | append_singleton ls raw ih =>
    rw [List.rdropWhile_concat]
    split
    · next h =>
      have hs : isSolid raw = false := by simpa using h
      rw [ih, List.filter_append]
      simp [hs]
    · rfl

/-- The lines of the block that come back. -/
def blockLines (block : String) : List String :=
  (Document.keptLines block).flatMap fun l => readBack l.toList

theorem isSolid_of_mem_keptLines (h : raw ∈ Document.keptLines block) : isSolid raw = true := by
  have hkept := (List.mem_filter.1 h).2
  rw [Bool.and_eq_true] at hkept
  exact hkept.1

theorem isImport_of_mem_keptLines (h : raw ∈ Document.keptLines block) : isImport (stripped raw) = false := by
  have hkept := (List.mem_filter.1 h).2
  simp only [Bool.and_eq_true, Bool.not_eq_true'] at hkept
  exact hkept.2

theorem isImport_of_head {c : Char} {cs rest : List Char} (h : cs.dropWhile Text.isBlank = c :: rest)
    (hc : c ≠ 'u') : isImport (stripped (.ofList cs)) = false := by
  rw [Bool.eq_false_iff, isImport, Text.startsWith, ne_eq, List.isPrefixOf_iff_prefix]
  simp only [stripped, String.toList_ofList]
  intro hstart
  have hhead := hstart.trans (Text.strip_isPrefix cs)
  rw [h] at hhead
  exact hc (List.cons_prefix_cons.1 hhead).1.symm

theorem blockLines_eq (hr : '\r' ∉ block.toList) : blockLines block = Document.keptLines block := by
  have hline : ∀ raw ∈ Document.keptLines block, readBack raw.toList = [raw] := fun raw hraw => by
    obtain ⟨hn, hin⟩ := mem_lines (List.mem_of_mem_filter hraw)
    rw [readBack_line hn fun h => hr (hin.mem h), if_pos (isSolid_of_mem_keptLines hraw)]
  unfold blockLines
  rw [List.flatMap_congr hline]
  simp

theorem isImport_of_mem_blockLines (hr : '\r' ∉ block.toList) (h : raw ∈ blockLines block) :
    isImport (stripped raw) = false :=
  isImport_of_mem_keptLines (blockLines_eq hr ▸ h)

theorem keptLines_append_newline (as bs : List Char) : Document.keptLines (.ofList (as ++ '\n' :: bs)) =
    Document.keptLines (.ofList as) ++ Document.keptLines (.ofList bs) := by
  simp only [Document.keptLines, Text.lines, String.toList_ofList, Text.splitAtChar_append, List.map_append,
    List.filter_append]

theorem keptLines_intercalate (rows : List (List Char)) : Document.keptLines (.ofList (['\n'].intercalate rows)) =
    rows.flatMap fun row => Document.keptLines (.ofList row) := by
  induction rows with
  | nil => rfl
  | cons row rows ih =>
    cases rows with
    | nil => simp
    | cons row' rows =>
      rw [List.intercalate_cons_cons, List.append_assoc, List.singleton_append, keptLines_append_newline, ih]
      rfl

theorem blockLines_intercalate (rows : List (List Char)) :
    blockLines (.ofList (['\n'].intercalate rows)) = rows.flatMap fun row => blockLines (.ofList row) := by
  unfold blockLines
  rw [keptLines_intercalate, List.flatMap_assoc]

/-- The lines of the import that come back: more than one where the name of the class has line ends. -/
def importLines (doc : Document) (fqcn : String) : List String :=
  if importOf fqcn ∈ doc.imports then [] else readBack (importOf fqcn).toList

/-- The name of a class may have line ends, but without a space none of its lines is an import. -/
theorem reach_importLines (hspace : ' ' ∉ fqcn.toList) (hr : '\r' ∉ fqcn.toList) (doc : Document) :
    ∃ stage, reach .header (importLines doc fqcn) = some stage := by
  unfold importLines
  split
  · exact ⟨.header, rfl⟩
  have hcs : '\r' ∉ (importOf fqcn).toList := by rw [toList_importOf]; simp [hr]
  obtain ⟨piece, pieces, hsplit⟩ :=
    List.exists_cons_of_ne_nil (Text.splitAtChar_ne_nil '\n' (fqcn.toList ++ [';']))
  have hpieces : ∀ l ∈ pieces, ' ' ∉ l := fun l hl h => by
    have hin := Text.infix_of_mem_splitAtChar (hsplit ▸ List.mem_cons_of_mem piece hl)
    have hmem := hin.mem h
    simp [hspace] at hmem
  have hlines : Text.splitAtChar '\n' (importOf fqcn).toList = ("use ".toList ++ piece) :: pieces := by
    rw [toList_importOf]
    simp [Text.splitAtChar, hsplit]
  have hfirst : isSolid (.ofList ("use ".toList ++ piece)) = true :=
    Text.isSolid_iff.2 ⟨'u', by simp, by decide⟩
  have hrest : ∀ raw ∈ pieces.map String.ofList, isSolid raw = true → isImport (stripped raw) = false := by
    rintro raw hraw -
    obtain ⟨l, hl, rfl⟩ := List.mem_map.1 hraw
    have hspace' : ' ' ∉ (stripped (.ofList l)).toList := fun h => by
      rw [stripped, String.toList_ofList, String.toList_ofList] at h
      exact hpieces l hl ((Text.strip_sublist l).mem h)
    rw [Bool.eq_false_iff, isImport, Text.startsWith, ne_eq, List.isPrefixOf_iff_prefix]
    exact fun hhead => hspace' (hhead.subset (by simp))
  obtain ⟨stage, hstage, hne⟩ : ∃ stage, after? .header (.ofList ("use ".toList ++ piece)) = some stage ∧
      stage ≠ .beforeMarker := ⟨_, after?_header hfirst, by split <;> simp⟩
  obtain ⟨stage', hstage', -⟩ := reach_of_no_import hne hrest
  rw [Text.readBack_eq_solid hcs, Text.solid, hlines, reach_filter, List.map_cons, reach_cons, hstage]
  exact ⟨stage', hstage'⟩

theorem readBack_render (hr : '\r' ∉ text.toList) (hp : Document.parse text = .ok doc)
    (fqcn block : String) :
    ∃ before behind, solid text.toList = before ++ behind ∧
      reach .beforeMarker before = some .header ∧ (∀ l ∈ behind, isImport (stripped l) = false) ∧
      readBack (((doc.withImport (importOf fqcn)).1.withBlock block).render).toList =
        before ++ importLines doc fqcn ++ behind ++ blockLines block := by
  obtain ⟨hls, stage, hreads, hs⟩ := parse_ok hp
  have hi := hreads.importPlace hs
  obtain ⟨hbefore, hbehind⟩ := hreads.split hi
  have hclean : ∀ raw ∈ doc.map (·.text), '\n' ∉ raw.toList ∧ '\r' ∉ raw.toList := fun raw hraw => by
    obtain ⟨hn, hin⟩ := mem_lines (mem_lines_of_mem_fileLines (hls ▸ hraw))
    exact ⟨hn, fun h => hr (hin.mem h)⟩
  generalize hplace : doc.importPlace = i at hi hbefore hbehind
  refine ⟨((doc.map (·.text)).take i).filter isSolid, ((doc.map (·.text)).drop i).filter isSolid, ?_, ?_,
    fun l hl => ?_, ?_⟩
  · rw [← List.filter_append, List.take_append_drop, hls, filter_fileLines]
  · rw [reach_filter, ← List.map_take]; exact hbefore
  · obtain ⟨hmem, hsolid⟩ := List.mem_filter.1 hl
    rw [← List.map_drop] at hmem
    obtain ⟨x, hx, rfl⟩ := List.mem_map.1 hmem
    exact hbehind x hx hsolid
  · have hrdrop : ∀ raw ∈ ((doc.map (·.text)).drop i).rdropWhile (fun l => !isSolid l),
        '\n' ∉ raw.toList ∧ '\r' ∉ raw.toList := fun raw hraw =>
      hclean raw (List.mem_of_mem_drop ((List.rdropWhile_prefix ..).subset hraw))
    rw [render_insertion hreads hs, Text.readBack_joined, hplace, insertedLines, List.flatMap_append,
      List.flatMap_append, List.flatMap_append, List.flatMap_cons, readBack_lines hrdrop, filter_rdropWhile,
      readBack_lines fun raw hraw => hclean raw (List.mem_of_mem_take hraw)]
    unfold importLines blockLines
    split <;> simp

end Lines

section Reread

/-- The text that is read after `text` was written. -/
def reread (text : String) : String :=
  .ofList (Text.unifyNewlines text.toList)

theorem solid_reread (text : String) : solid (reread text).toList = readBack text.toList := by
  rw [reread, String.toList_ofList, readBack]

/-- A merged text parses if the lines of the import may stand in the header and none of the block is
an import. -/
theorem parse_reread (hr : '\r' ∉ text.toList) (hp : Document.parse text = .ok doc)
    (himport : ∃ stage, reach .header (importLines doc fqcn) = some stage)
    (hblock : ∀ l ∈ blockLines block, isImport (stripped l) = false) :
    ∃ doc', Document.parse (reread ((doc.withImport (importOf fqcn)).1.withBlock block).render) = .ok doc' := by
  obtain ⟨before, behind, -, hbefore, hbehind, hread⟩ := readBack_render hr hp fqcn block
  obtain ⟨stage, hstage⟩ := himport
  have hne : stage ≠ .beforeMarker := reach_ne_beforeMarker (by simp) hstage
  have hnone : ∀ l ∈ behind ++ blockLines block, isSolid l = true → isImport (stripped l) = false :=
    fun l hl _ => (List.mem_append.1 hl).elim (hbehind l) (hblock l)
  obtain ⟨stage', hrest, hne'⟩ := reach_of_no_import hne hnone
  refine parse_ok_iff.2 ⟨stage', ?_, hne'⟩
  rw [solid_reread, hread, List.append_assoc, reach_append, reach_append, hbefore, Option.bind_some, hstage]
  exact hrest

/-- All that a text has on its lines, a merge into it leaves there. -/
theorem solid_sublist_reread (hr : '\r' ∉ text.toList) (hp : Document.parse text = .ok doc) :
    (solid text.toList).Sublist
      (solid (reread ((doc.withImport (importOf fqcn)).1.withBlock block).render).toList) := by
  obtain ⟨before, behind, htext, -, -, hread⟩ := readBack_render hr hp fqcn block
  rw [htext, solid_reread, hread]
  exact ((List.sublist_append_left ..).append (.refl behind)).trans (List.sublist_append_left ..)

theorem blockLines_subset_reread (hr : '\r' ∉ text.toList) (hp : Document.parse text = .ok doc) :
    blockLines block ⊆
      solid (reread ((doc.withImport (importOf fqcn)).1.withBlock block).render).toList := by
  obtain ⟨before, behind, -, -, -, hread⟩ := readBack_render hr hp fqcn block
  rw [solid_reread, hread]
  exact List.subset_append_right ..

end Reread

section Token

theorem holdsToken_iff_infix : holdsToken text token = true ↔
    ∃ q, (q = '\'' ∨ q = '"') ∧ q :: token.toList ++ [q] <:+: text.toList := by
  simp [holdsToken, Text.mentions, Text.contains_iff_infix, String.toList_append]

/-- A token on one line is held by a text that has the line. -/
theorem holdsToken_of_mem_solid (hl : raw ∈ solid text.toList) (ht : holdsToken raw token = true) :
    holdsToken text token = true := by
  obtain ⟨q, hq, h⟩ := holdsToken_iff_infix.1 ht
  exact holdsToken_iff_infix.2 ⟨q, hq, h.trans (mem_lines (List.mem_of_mem_filter hl)).2⟩

theorem exists_line_of_holdsToken (hn : '\n' ∉ token.toList) (h : holdsToken text token = true) :
    ∃ raw ∈ solid text.toList, holdsToken raw token = true := by
  obtain ⟨q, hq, h⟩ := holdsToken_iff_infix.1 h
  have hsep : '\n' ∉ q :: token.toList ++ [q] := by rcases hq with rfl | rfl <;> simp [hn]
  obtain ⟨piece, hpiece, hin⟩ := Text.exists_piece_of_infix hsep h
  refine ⟨.ofList piece, List.mem_filter.2 ⟨List.mem_map_of_mem hpiece, ?_⟩, ?_⟩
  · refine Text.isSolid_iff.2 ⟨q, ?_, by rcases hq with rfl | rfl <;> decide⟩
    rw [String.toList_ofList]
    exact hin.mem (List.mem_cons_self ..)
  · exact holdsToken_iff_infix.2 ⟨q, hq, by rwa [String.toList_ofList]⟩

theorem holdsToken_mono {text' : String} (hn : '\n' ∉ token.toList)
    (hsub : solid text.toList ⊆ solid text'.toList) (h : holdsToken text token = true) :
    holdsToken text' token = true := by
  obtain ⟨raw, hraw, ht⟩ := exists_line_of_holdsToken hn h
  exact holdsToken_of_mem_solid (hsub hraw) ht

end Token

end Scaffold.Route
