import Scaffold.Proofs.Route.Layout
import Scaffold.Proofs.Tree.Read

/-!
# What a merge writes

`merge_inserts`: a merge that inserts writes the lines of the file with the import at its place, the
blank end cut off, one empty line and the lines of the block, and nothing else. `StartsFrom` is the
text that a merge works on, which is that of the file or the first content of a new one.
-/

namespace Scaffold.Route
open Text (isSolid stripped)

variable {stage : Stage} {doc : Document} {text boilerplate fqcn block token : String} {i : Nat}
  {t : Tree} {file : Path} {w : Workspace} {l : Line}

section Import

theorem toList_importOf (fqcn : String) :
    (importOf fqcn).toList = 'u' :: ('s' :: 'e' :: ' ' :: fqcn.toList) ++ [';'] := by
  show ("use " ++ fqcn ++ ";").toList = _
  simp [String.toList_append]

theorem stripped_importOf (fqcn : String) : stripped (importOf fqcn) = importOf fqcn := by
  have hstrip : Text.strip (importOf fqcn).toList = (importOf fqcn).toList := by
    rw [toList_importOf, Text.strip, List.cons_append, List.dropWhile_cons_of_neg (by decide)]
    exact List.rdropWhile_concat_neg _ (_ :: _) ';' (by decide)
  rw [stripped, hstrip, String.ofList_toList]

theorem isSolid_importOf (fqcn : String) : isSolid (importOf fqcn) = true :=
  Text.isSolid_iff.2 ⟨'u', by rw [toList_importOf]; simp, by decide⟩

end Import

section Lines

/-- The lines of a file after an insertion: the import at line `i` if it is new, then the rest without
the blank lines at its end, an empty line and the block. -/
def insertedLines (doc : Document) (i : Nat) (fqcn block : String) : List String :=
  let ls := doc.map (·.text)
  ls.take i ++ (if importOf fqcn ∈ doc.imports then [] else [importOf fqcn]) ++
    (ls.drop i).rdropWhile (fun l => !isSolid l) ++ "" :: Document.keptLines block

theorem rdropWhile_append {α : Type} {p : α → Bool} {as bs : List α}
    (h : (∀ b ∈ bs, p b = true) → ∀ a, as.getLast? = some a → p a = false) :
    (as ++ bs).rdropWhile p = as ++ bs.rdropWhile p := by
  induction bs using List.reverseRecOn with
  | nil =>
    rw [List.append_nil, List.rdropWhile_nil, List.append_nil, List.rdropWhile_eq_self_iff]
    intro hne
    rw [h (by simp) _ (List.getLast?_eq_some_getLast hne)]
    simp
  | append_singleton bs b ih =>
    rw [← List.append_assoc, List.rdropWhile_concat, List.rdropWhile_concat]
    split
    · next hb => exact ih fun hbs => h (by simpa [or_imp, forall_and, hb] using hbs)
    · rw [List.append_assoc]

theorem map_dropTrailingBlanks (h : ∀ l ∈ doc, l.tag = .blank ↔ isSolid l.text = false) :
    (Document.dropTrailingBlanks doc).map (·.text) =
      (doc.map (·.text)).rdropWhile (fun l => !isSolid l) := by
  show (doc.rdropWhile (·.tag = .blank)).map (·.text) = _
  induction doc using List.reverseRecOn with
  | nil => rfl
  | append_singleton doc l ih =>
    have hl := h l (by simp)
    rw [List.rdropWhile_concat, List.map_append, List.map_singleton, List.rdropWhile_concat]
    by_cases ht : l.tag = .blank
    · simp only [ht, hl.1 ht, decide_true, Bool.not_false, ↓reduceIte]
      exact ih fun x hx => h x (List.mem_append_left _ hx)
    · have hs : isSolid l.text = true := by simpa [ht] using hl
      simp [ht, hs]

/-- The blank lines at the end of a file start behind the place of an import. -/
theorem ImportPlace.solid_before (hi : ImportPlace doc i) (h : Reads .beforeMarker doc stage)
    (hblank : ∀ l ∈ doc.drop i, isSolid l.text = false) (hl : (doc.take i).getLast? = some l) :
    isSolid l.text = true := by
  have hall := fun x hx => h.blank_iff (l := x) hx
  cases hi with
  | @statement pre post b body first =>
    have hb := (hall b (by simp)).2 (hblank b (by simp))
    rw [hb] at body
    cases body
  | @header pre post b none header last =>
    rw [take_past, List.getLast?_concat, Option.some.injEq] at hl
    subst hl
    have hb := hall b (by simp)
    by_contra hs
    have htag : b.tag = .blank := hb.2 (by simpa using hs)
    simp [Document.isHeader, htag] at header

/-- Nothing before the place of an import is dropped with the blank lines at the end. -/
theorem ImportPlace.rdropWhile_lines (hi : ImportPlace doc i) (h : Reads .beforeMarker doc stage) :
    (doc.map (·.text)).rdropWhile (fun l => !isSolid l) =
      (doc.map (·.text)).take i ++ ((doc.map (·.text)).drop i).rdropWhile (fun l => !isSolid l) := by
  conv_lhs => rw [← List.take_append_drop i (doc.map (·.text))]
  refine rdropWhile_append fun hdrop raw hraw => ?_
  rw [← List.map_take, List.getLast?_map, Option.map_eq_some_iff] at hraw
  obtain ⟨l, hl, rfl⟩ := hraw
  rw [hi.solid_before h (fun x hx => ?_) hl, Bool.not_true]
  simpa using hdrop x.text (by rw [← List.map_drop]; exact List.mem_map_of_mem hx)

/-- The text of a document with an import at its place and a block at its end. -/
theorem render_insertion (h : Reads .beforeMarker doc stage) (hs : stage ≠ .beforeMarker) :
    ((doc.withImport (importOf fqcn)).1.withBlock block).render =
      "\n".intercalate (insertedLines doc doc.importPlace fqcn block) ++ "\n" := by
  have hi := h.importPlace hs
  generalize hplace : doc.importPlace = i at hi
  have hblank : ∀ l ∈ doc, l.tag = .blank ↔ isSolid l.text = false := fun _ hl => h.blank_iff hl
  unfold Document.render Document.withBlock insertedLines
  rw [List.map_append, List.map_cons, List.map_map]
  have hkept : (Document.keptLines block).map ((·.text) ∘ fun x => (⟨x, .body⟩ : Line)) =
      Document.keptLines block := List.map_id' _
  rw [hkept]
  congr 3
  unfold Document.withImport
  rw [stripped_importOf]
  by_cases hmem : importOf fqcn ∈ doc.imports
  · simp only [List.contains_eq_mem, hmem, decide_true, ↓reduceIte, List.append_nil]
    rw [map_dropTrailingBlanks hblank, hi.rdropWhile_lines h]
  · simp only [List.contains_eq_mem, hmem, decide_false, Bool.false_eq_true, ↓reduceIte, hplace]
    rw [map_dropTrailingBlanks fun l hl => ?_]
    · rw [List.append_cons, List.map_append, List.map_append, List.map_singleton, List.map_take, List.map_drop]
      refine rdropWhile_append fun _ raw hraw => ?_
      rw [List.getLast?_concat, Option.some.injEq] at hraw
      rw [← hraw, isSolid_importOf, Bool.not_true]
    · rcases List.mem_append.1 hl with hl | hl
      · exact hblank l (List.mem_of_mem_take hl)
      · rcases List.mem_cons.1 hl with rfl | hl
        · simp [isSolid_importOf]
        · exact hblank l (List.mem_of_mem_drop hl)

end Lines

section Merge

/-- The text that a merge into a file works on: a file that is missing or blank counts as having the
boilerplate as its text. -/
inductive StartsFrom (t : Tree) (file : Path) (boilerplate : String) : String → Prop where
  | present {text : String} (read : t.readText file = .ok text) (solid : isSolid text = true) :
      StartsFrom t file boilerplate text
  | blank {text : String} (read : t.readText file = .ok text) (blank : isSolid text = false) :
      StartsFrom t file boilerplate boilerplate
  | missing (stands : t.stands file = .ok false) : StartsFrom t file boilerplate boilerplate

theorem merged_of_startsFrom {raw : String} (h : (if isSolid raw then raw else boilerplate) = text)
    (token fqcn block : String) :
    merged raw boilerplate token fqcn block = (Document.parse text).map fun doc =>
      if holdsToken text token then none
      else some (((doc.withImport (importOf fqcn)).1.withBlock block).render) := by
  have htext : (if (stripped raw).isEmpty then boilerplate else raw) = text := by
    rw [← h, isSolid]
    cases (stripped raw).isEmpty <;> rfl
  unfold merged
  simp only [htext, bind, Except.bind]
  cases Document.parse text with
  | error flaw => rfl
  | ok doc => simp only [Except.map]; split <;> rfl

/-- What a merge does once it knows the text to write. -/
def conclude (file : Path) (names : Naming) : Except RouteFlaw (Option String) → Action Registration
  | .error flaw => throw (.corruptRoutes file.toString flaw)
  | .ok none => do
    Action.say .info source s!"Routes for {names.one.pascal} already registered in {file}."
    pure .alreadyPresent
  | .ok (some new) => do
    let _ ← Action.edit (Edit.replaceFile file new)
    Action.say .info source s!"Registered {names.one.pascal} routes in {file}."
    pure .inserted

/-- A merge that can read its text depends on that text alone. -/
theorem merge_of_startsFrom (h : StartsFrom w.tree file boilerplate text) (names : Naming)
    (block fqcn : String) :
    ∃ log, merge file names block fqcn boilerplate w =
      conclude file names ((Document.parse text).map fun doc =>
        if holdsToken text names.many.kebab then none
        else some (((doc.withImport (importOf fqcn)).1.withBlock block).render)) { w with log := log } := by
  obtain ⟨raw, log, hraw, hmerge⟩ : ∃ raw log, (if isSolid raw then raw else boilerplate) = text ∧
      merge file names block fqcn boilerplate w =
        conclude file names (merged raw boilerplate names.many.kebab fqcn block) { w with log := log } := by
    unfold merge
    cases h with
    | present hread hsolid =>
      refine ⟨text, w.log, if_pos hsolid, ?_⟩
      simp only [bind, EStateM.bind, Action.look, Tree.stands_of_readText hread, hread, ↓reduceIte]
      rcases merged text boilerplate names.many.kebab fqcn block with _ | _ | _ <;> rfl
    | @blank raw hread hblank =>
      refine ⟨raw, w.log, by simp [hblank], ?_⟩
      simp only [bind, EStateM.bind, Action.look, Tree.stands_of_readText hread, hread, ↓reduceIte]
      rcases merged raw text names.many.kebab fqcn block with _ | _ | _ <;> rfl
    | missing hstands =>
      refine ⟨text, ⟨.info, source, s!"Route file {file} missing; starting from boilerplate."⟩ :: w.log,
        ite_self _, ?_⟩
      have hsay : ∀ line : String, Action.say .info source line w =
          .ok () { w with log := ⟨.info, source, line⟩ :: w.log } := fun _ => rfl
      simp only [bind, EStateM.bind, Action.look, hstands, Bool.false_eq_true, ↓reduceIte, hsay, pure,
        EStateM.pure]
      rcases merged text text names.many.kebab fqcn block with _ | _ | _ <;> rfl
  exact ⟨log, by rw [hmerge, merged_of_startsFrom hraw]⟩

variable {names : Naming}

theorem merge_corrupt {flaw : RouteFlaw} (h : StartsFrom w.tree file boilerplate text)
    (hp : Document.parse text = .error flaw) (names : Naming) (block fqcn : String) :
    ∃ log, merge file names block fqcn boilerplate w =
      .error (.corruptRoutes file.toString flaw) { w with log := log } := by
  obtain ⟨log, hm⟩ := merge_of_startsFrom h names block fqcn
  rw [hp] at hm
  exact ⟨log, hm⟩

theorem merge_registered (h : StartsFrom w.tree file boilerplate text)
    (hp : Document.parse text = .ok doc) (ht : holdsToken text names.many.kebab = true)
    (block fqcn : String) :
    ∃ log, merge file names block fqcn boilerplate w = .ok .alreadyPresent { w with log := log } := by
  obtain ⟨log, hm⟩ := merge_of_startsFrom h names block fqcn
  simp only [hp, Except.map, ht, ↓reduceIte] at hm
  exact ⟨_, hm⟩

/-- A merge that cannot read its text is refused by the file system, before it changes anything. -/
theorem merge_cases (file : Path) (names : Naming) (block fqcn boilerplate : String) (w : Workspace) :
    (∃ text, StartsFrom w.tree file boilerplate text) ∨
      ∃ f, (f.Refuses file ∨ f = .notUtf8 ∧ w.tree.Garbled file) ∧
        merge file names block fqcn boilerplate w = .error f w := by
  cases hs : w.tree.stands file with
  | error f =>
    refine .inr ⟨f, .inl (.inr (Tree.stands_error hs)), ?_⟩
    simp only [merge, bind, EStateM.bind, Action.look, hs]
  | ok there =>
    cases there with
    | false => exact .inl ⟨boilerplate, .missing hs⟩
    | true =>
      cases hr : w.tree.readText file with
      | error f =>
        refine .inr ⟨f, Tree.readText_error hr, ?_⟩
        simp only [merge, bind, EStateM.bind, Action.look, hs, ↓reduceIte, hr]
      | ok text =>
        cases hsolid : isSolid text with
        | true => exact .inl ⟨text, .present hr hsolid⟩
        | false => exact .inl ⟨boilerplate, .blank hr hsolid⟩

theorem merge_unregistered (h : StartsFrom w.tree file boilerplate text)
    (hp : Document.parse text = .ok doc) (ht : holdsToken text names.many.kebab = false)
    (block fqcn : String) :
    ∃ log, merge file names block fqcn boilerplate w =
      match Edit.replaceFile file (((doc.withImport (importOf fqcn)).1.withBlock block).render) w.tree with
      | .ok _ t => .ok .inserted { w with tree := t, log := log }
      | .error fault t => .error fault { w with tree := t, log := log } := by
  obtain ⟨log, hm⟩ := merge_of_startsFrom h names block fqcn
  simp only [hp, Except.map, ht, Bool.false_eq_true, ↓reduceIte, conclude, bind, EStateM.bind,
    Action.edit] at hm
  cases hr : Edit.replaceFile file (((doc.withImport (importOf fqcn)).1.withBlock block).render) w.tree with
  | ok record t => rw [hr] at hm; exact ⟨_, hm⟩
  | error fault t => rw [hr] at hm; exact ⟨_, hm⟩

/-- A merge that inserts has replaced the file by its text with the import and the block. -/
theorem replaced_of_inserted {w' : Workspace} (h : merge file names block fqcn boilerplate w = .ok .inserted w') :
    ∃ text doc, StartsFrom w.tree file boilerplate text ∧ Document.parse text = .ok doc ∧
      Edit.Replaced w.tree file (((doc.withImport (importOf fqcn)).1.withBlock block).render) w'.tree := by
  rcases merge_cases file names block fqcn boilerplate w with ⟨text, hs⟩ | ⟨f, -, hm⟩
  swap
  · rw [h] at hm
    cases hm
  cases hp : Document.parse text with
  | error flaw =>
    obtain ⟨log, hm⟩ := merge_corrupt hs hp names block fqcn
    rw [h] at hm
    cases hm
  | ok doc =>
    cases ht : holdsToken text names.many.kebab with
    | true =>
      obtain ⟨log, hm⟩ := merge_registered hs hp ht block fqcn
      rw [h] at hm
      cases hm
    | false =>
      obtain ⟨log, hm⟩ := merge_unregistered hs hp ht block fqcn
      have hw := Edit.wp_replaceFile file (((doc.withImport (importOf fqcn)).1.withBlock block).render) w.tree
      rw [h] at hm
      split at hm
      · next record t hreplace =>
        cases hm
        exact ⟨text, doc, hs, hp, (wp_ok hreplace).1 hw⟩
      · cases hm

/-- A merge of routes that are not registered writes the lines of the text with the import and the
block, and nothing else. It fails only where the file system refuses to replace the file, and then with
that fault. -/
theorem merge_inserts (h : StartsFrom w.tree file boilerplate text)
    (hp : Document.parse text = .ok doc) (ht : holdsToken text names.many.kebab = false) :
    ∃ i log new, ImportPlace doc i ∧ doc.map (·.text) = fileLines text ∧
      new = "\n".intercalate (insertedLines doc i fqcn block) ++ "\n" ∧
      merge file names block fqcn boilerplate w = (match Edit.replaceFile file new w.tree with
        | .ok _ t => .ok .inserted { w with tree := t, log := log }
        | .error fault t => .error fault { w with tree := t, log := log }) ∧
      ∀ record t, Edit.replaceFile file new w.tree = .ok record t → Edit.Replaced w.tree file new t := by
  obtain ⟨log, hm⟩ := merge_unregistered h hp ht block fqcn
  obtain ⟨hlines, stage, hreads, hs⟩ := parse_ok hp
  rw [render_insertion hreads hs] at hm
  refine ⟨doc.importPlace, log, _, hreads.importPlace hs, hlines, rfl, hm, fun record t hr => ?_⟩
  exact (wp_ok hr).1 (Edit.wp_replaceFile file _ w.tree)

theorem merge_inserts_books :
    let text := "<?php\nuse A;\n\nRoute::x();\n\n"
    let w := Workspace.start ⟨[], [(["r.php"], .file 0o600 text.toUTF8)]⟩
    let file : Path := ⟨.root, ["r.php"]⟩
    let names : Naming := ⟨.ofPascal "Book", .ofPascal "Books"⟩
    let doc : Document := [⟨"<?php", .marker⟩, ⟨"use A;", .import_⟩, ⟨"", .blank⟩,
      ⟨"Route::x();", .body⟩, ⟨"", .blank⟩]
    ∃ i log new, ImportPlace doc i ∧ doc.map (·.text) = fileLines text ∧
      new = "\n".intercalate (insertedLines doc i "B" "Route::y('books');") ++ "\n" ∧
      merge file names "Route::y('books');" "B" apiBoilerplate w =
        (match Edit.replaceFile file new w.tree with
        | .ok _ t => .ok .inserted { w with tree := t, log := log }
        | .error fault t => .error fault { w with tree := t, log := log }) ∧
      ∀ record t, Edit.replaceFile file new w.tree = .ok record t → Edit.Replaced w.tree file new t := by
  intro text w file names doc
  have hfind : w.tree.find file = .ok (.file 0o600 text.toUTF8) := Tree.find_eq_ok.2 ⟨["r.php"], rfl, rfl⟩
  have hread : w.tree.readText file = .ok text :=
    Tree.readText_of_find (by decide +kernel) hfind (by decide +kernel)
  exact merge_inserts (.present hread (by decide +kernel)) (by decide +kernel) (by decide +kernel)

end Merge

end Scaffold.Route
