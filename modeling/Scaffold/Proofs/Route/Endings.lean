import Scaffold.Proofs.Route.Fate
import Scaffold.Proofs.Text.Rows

/-!
# What a merge does to the lines that it keeps

A merge writes the rows of the file in order, but for blank ones at its end, and adds its import and its block
(`merge_keeps_rows`). What ended a row is lost between reading and writing: every row is written with a newline, so only a
file without carriage returns is kept as it was.
-/

namespace Scaffold.Route
open Text (isSolid stripped rows Row)

/-- The rows of a file, each as `write` has it, with the import of a class among them unless it was there, and an
empty line and a block behind them in place of the blank rows at the end. -/
inductive Adds (write : Row → List Char) (fqcn block : String) : List Row → List Char → Prop where
  | intro {head rest tail : List Row} {imports : List String}
      (blank : ∀ r ∈ tail, isSolid (.ofList r.line) = false) (import_ : imports = [] ∨ imports = [importOf fqcn]) :
      Adds write fqcn block (head ++ rest ++ tail)
        (head.flatMap write ++ imports.flatMap (·.toList ++ ['\n']) ++ rest.flatMap write ++
          ("" :: Document.keptLines block).flatMap (·.toList ++ ['\n']))

variable {write write' : Row → List Char} {fqcn block boilerplate old text : String} {rs : List Row} {new : List Char}
  {r : Row} {doc : Document} {names : Naming} {file : Path} {w w' : Workspace} {mode : Nat}

namespace Adds

theorem congr (h : Adds write fqcn block rs new) (heq : ∀ r ∈ rs, write' r = write r) :
    Adds write' fqcn block rs new := by
  obtain @⟨head, rest, tail, imports, blank, himport⟩ := h
  have hhead : head.flatMap write' = head.flatMap write := List.flatMap_congr fun r hr => heq r (by simp [hr])
  have hrest : rest.flatMap write' = rest.flatMap write := List.flatMap_congr fun r hr => heq r (by simp [hr])
  rw [← hhead, ← hrest]
  exact .intro blank himport

/-- A row with something on it is written. -/
theorem writes (h : Adds write fqcn block rs new) (hr : r ∈ rs) (hs : isSolid (.ofList r.line) = true) :
    write r <:+: new := by
  obtain @⟨head, rest, tail, imports, blank, himport⟩ := h
  have hmem : r ∈ head ∨ r ∈ rest := by
    rcases List.mem_append.1 hr with hr | hr
    · exact List.mem_append.1 hr
    · rw [blank r hr] at hs
      cases hs
  have hpart : ∀ {part : List Row}, r ∈ part → write r <:+: part.flatMap write := fun hpart => by
    obtain ⟨before, behind, rfl⟩ := List.append_of_mem hpart
    exact ⟨before.flatMap write, behind.flatMap write, by simp⟩
  rcases hmem with hmem | hmem
  · rw [List.append_assoc, List.append_assoc]
    exact (hpart hmem).trans (List.prefix_append ..).isInfix
  · exact (hpart hmem).trans ⟨_, _, rfl⟩

end Adds

section Rows

theorem fileLines_reread (text : String) : fileLines (reread text) = (rows text.toList).map (.ofList ·.line) := by
  have hlines : Text.lines (reread text) =
      (Text.splitAtChar '\n' (Text.unifyNewlines text.toList)).map String.ofList := by
    rw [Text.lines, reread, String.toList_ofList]
  have hread := Text.reading_rows text.toList
  generalize Text.splitAtChar '\n' (Text.unifyNewlines text.toList) = pieces at hread hlines
  cases hread with
  | past =>
    rw [List.map_append, List.map_map] at hlines
    exact fileLines_eq hlines
  | @within r last some =>
    rw [List.map_map] at hlines
    rw [fileLines, hlines, if_neg ?_]
    · rfl
    · simp [last, some]

theorem flatMap_closed (rs : List Row) :
    (rs.map (.ofList ·.line)).flatMap (fun l : String => l.toList ++ ['\n']) = rs.flatMap Row.closed := by
  rw [List.flatMap_map]
  exact List.flatMap_congr fun r _ => by rw [String.toList_ofList, Row.closed]

theorem rdropWhile_map {α β : Type} (p : β → Bool) (f : α → β) (as : List α) :
    (as.map f).rdropWhile p = (as.rdropWhile (p ∘ f)).map f := by
  rw [List.rdropWhile, List.rdropWhile, ← List.map_reverse, List.dropWhile_map, List.map_reverse]

theorem adds_render (hp : Document.parse (reread old) = .ok doc) :
    Adds Row.closed fqcn block (rows old.toList) ((doc.withImport (importOf fqcn)).1.withBlock block).render.toList := by
  obtain ⟨hlines, stage, hreads, hs⟩ := parse_ok hp
  rw [fileLines_reread] at hlines
  rw [render_insertion hreads hs, Text.toList_joined (by simp [insertedLines]), insertedLines, hlines]
  generalize rows old.toList = rs at *
  let p : Row → Bool := fun r => !isSolid (.ofList r.line)
  have hparts : rs = rs.take doc.importPlace ++ (rs.drop doc.importPlace).rdropWhile p ++
      (rs.drop doc.importPlace).rtakeWhile p := by
    rw [List.append_assoc, List.rdropWhile_append_rtakeWhile, List.take_append_drop]
  have hrest : ((rs.map (String.ofList ·.line)).drop doc.importPlace).rdropWhile (fun l => !isSolid l) =
      ((rs.drop doc.importPlace).rdropWhile p).map (.ofList ·.line) := by
    rw [← List.map_drop, rdropWhile_map]
    rfl
  rw [hrest, ← List.map_take, List.flatMap_append, List.flatMap_append, List.flatMap_append, flatMap_closed,
    flatMap_closed]
  have hblank : ∀ r ∈ (rs.drop doc.importPlace).rtakeWhile p, isSolid (.ofList r.line) = false := fun r hr => by
    simpa [p] using List.mem_rtakeWhile_imp hr
  -- the import goes between the first two parts, and the last is dropped
  generalize rs.take doc.importPlace = head at hparts ⊢
  generalize (rs.drop doc.importPlace).rdropWhile p = rest at hparts ⊢
  generalize (rs.drop doc.importPlace).rtakeWhile p = tail at hparts hblank
  subst hparts
  refine .intro hblank ?_
  split
  · exact .inl rfl
  · exact .inr rfl

end Rows

section Merge

theorem startsFrom_reread (hfind : w.tree.find file = .ok (.file mode old.toUTF8)) (hnull : Tree.hasNull file = false)
    (hsolid : isSolid old = true) : StartsFrom w.tree file boilerplate (reread old) := by
  have hread : w.tree.readText file = .ok (reread old) :=
    Tree.readText_eq_ok.2 ⟨mode, _, old, hnull, hfind, Tree.fromUTF8?_toUTF8 old, rfl⟩
  exact .present hread (by rw [reread, Text.isSolid_unifyNewlines, hsolid])

/-- A merge into a file that stands and is not blank keeps every row of it but blank ones at the end, and adds
nothing but an import and a block. Each row is kept with its characters but for its end, which is written as a
newline; where the file holds no carriage return, each is kept with its end. -/
theorem merge_keeps_rows (hfind : w.tree.find file = .ok (.file mode old.toUTF8)) (hsolid : isSolid old = true)
    (hmerge : merge file names block fqcn boilerplate w = .ok .inserted w') :
    ∃ new : String, w'.tree.find file = .ok (.file mode new.toUTF8) ∧
      Adds Row.closed fqcn block (rows old.toList) new.toList ∧
      ('\r' ∉ old.toList → Adds Row.ended fqcn block (rows old.toList) new.toList) := by
  obtain ⟨text, doc, hstart, hp, hreplaced⟩ := replaced_of_inserted hmerge
  have hreread : begins? w.tree file boilerplate = some (reread old) :=
    begins?_eq_some.2 (startsFrom_reread hfind hreplaced.noNull hsolid)
  obtain rfl : reread old = text := Option.some.inj (hreread.symm.trans (begins?_eq_some.2 hstart))
  have hadds : Adds Row.closed fqcn block (rows old.toList) _ := adds_render hp
  have hmode : Edit.modeAt w.tree (file.resolveFrom w.tree.home) = mode := by
    rw [Edit.modeAt, Tree.find_eq_resolve hfind]
  refine ⟨_, hmode ▸ hreplaced.find, hadds, fun hr => hadds.congr fun r hmem => Text.ended_of_mem_rows hr hmem⟩

theorem exists_inserted {r : EStateM.Result Fault Workspace Registration} {p : Workspace → Bool}
    (h : (match r with | .ok .inserted w' => p w' | _ => false) = true) :
    ∃ w', r = .ok .inserted w' ∧ p w' = true := by
  rcases r with ⟨_ | _, w'⟩ | ⟨f, w'⟩
  · exact ⟨w', rfl, h⟩
  · cases h
  · cases h

theorem merge_keeps_rows_books :
    let old := "<?php\nuse A;\n\nRoute::x();\n \n"
    let w := Workspace.start ⟨[], [(["r.php"], .file 0o600 old.toUTF8)]⟩
    let file : Path := ⟨.root, ["r.php"]⟩
    let names : Naming := ⟨.ofPascal "Book", .ofPascal "Books"⟩
    ∃ w', merge file names "Route::y('books');" "B" apiBoilerplate w = .ok .inserted w' ∧
      ∃ new : String, w'.tree.find file = .ok (.file 0o600 new.toUTF8) ∧
        Adds Row.ended "B" "Route::y('books');" (rows old.toList) new.toList := by
  intro old w file names
  have hfind : w.tree.find file = .ok (.file 0o600 old.toUTF8) := Tree.find_eq_ok.2 ⟨["r.php"], rfl, rfl⟩
  obtain ⟨w', hmerge, -⟩ := exists_inserted (r := merge file names "Route::y('books');" "B" apiBoilerplate w)
    (p := fun _ => true) (by decide +kernel)
  obtain ⟨new, hnew, -, hended⟩ := merge_keeps_rows hfind (by decide +kernel) hmerge
  exact ⟨w', hmerge, new, hnew, hended (by decide +kernel)⟩

/-- A file whose lines end in both characters is written without carriage returns. -/
theorem merge_converts :
    let old := "<?php\r\nRoute::x();\r\n"
    let w := Workspace.start ⟨[], [(["r.php"], .file 0o644 old.toUTF8)]⟩
    let file : Path := ⟨.root, ["r.php"]⟩
    let names : Naming := ⟨.ofPascal "Book", .ofPascal "Books"⟩
    ∃ w', ∃ new : String, merge file names "Route::y('books');" "B" apiBoilerplate w = .ok .inserted w' ∧
      w'.tree.find file = .ok (.file 0o644 new.toUTF8) ∧
      ¬ Adds Row.ended "B" "Route::y('books');" (rows old.toList) new.toList := by
  intro old w file names
  let new := "<?php\nuse B;\nRoute::x();\n\nRoute::y('books');\n"
  obtain ⟨w', hmerge, hfind⟩ := exists_inserted (r := merge file names "Route::y('books');" "B" apiBoilerplate w)
    (p := fun w' => w'.tree.find file == .ok (.file 0o644 new.toUTF8)) (by decide +kernel)
  refine ⟨w', new, hmerge, by simpa using hfind, fun hadds => ?_⟩
  have hwritten : Row.ended ⟨"<?php".toList, .both⟩ <:+: new.toList :=
    hadds.writes (by decide +kernel) (by decide +kernel)
  have hreturn : '\r' ∈ new.toList := hwritten.mem (by decide)
  revert hreturn
  decide +kernel

end Merge

end Scaffold.Route
