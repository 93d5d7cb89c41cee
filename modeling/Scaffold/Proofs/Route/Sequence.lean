import Scaffold.Proofs.Route.Reread

/-!
# Merging into one file again and again

`merges_safe`: whatever calls are made on a route file, in whatever order, none finds it corrupt, none
registers routes twice, and no line that was there is lost. The invariant of the run is `Ready`; a
single call either changes no file or leaves a text that parses, holds its token and has the lines of
the text it started from (`wp_merge`). `Kept` says what two moments of the run have in common.
-/

namespace Scaffold.Route
open Text (isSolid stripped solid readBack)

/-- A call of the merge. -/
structure Call where
  names : Naming
  block : String
  fqcn : String
  boilerplate : String

namespace Call

def token (c : Call) : String :=
  c.names.many.kebab

def merge (c : Call) (file : Path) : Action Registration :=
  Route.merge file c.names c.block c.fqcn c.boilerplate

/-- The block has the token of its entity on a line that is merged, and no line end cuts a line of the
block or the import in two. -/
structure Clean (c : Call) : Prop where
  fqcn_newline : '\n' ∉ c.fqcn.toList
  fqcn_return : '\r' ∉ c.fqcn.toList
  block_return : '\r' ∉ c.block.toList
  token : ∃ raw ∈ Document.keptLines c.block, holdsToken raw c.token = true

/-- What a call needs so that the next one can read what it wrote: the lines that come back of the import
may stand in a header, none of the block is an import, and one of them has the token. -/
structure Fits (c : Call) : Prop where
  imports : ∀ doc, ∃ stage, reach .header (importLines doc c.fqcn) = some stage
  block : ∀ l ∈ blockLines c.block, isImport (stripped l) = false
  token : ∃ raw ∈ blockLines c.block, holdsToken raw c.token = true
  newline : '\n' ∉ c.token.toList

/-- A new file starts with a packaged text. -/
def Packaged (c : Call) : Prop :=
  c.boilerplate = apiBoilerplate ∨ c.boilerplate = webBoilerplate

end Call

/-- The workspace after some calls, whether they fail or not. -/
def run (file : Path) : List Call → Workspace → Workspace
  | [], w => w
  | c :: calls, w =>
    match c.merge file w with
    | .ok _ w' => run file calls w'
    | .error _ w' => run file calls w'

/-- The calls find a text that parses, or nothing and a packaged text to start from. -/
inductive Ready (t : Tree) (file : Path) (calls : List Call) : Prop where
  | parses {text : String} {doc : Document} (read : t.readText file = .ok text)
      (parse : Document.parse text = .ok doc)
  | blank {text : String} (read : t.readText file = .ok text) (blank : isSolid text = false)
      (packaged : ∀ c ∈ calls, c.Packaged)
  | missing (missing : ∀ mode bytes, t.entryAt (file.resolveFrom t.home) ≠ some (.file mode bytes))
      (packaged : ∀ c ∈ calls, c.Packaged)

/-- The file holds a text that parses and has all the lines `ls`, in their order. -/
structure Holds (t : Tree) (file : Path) (ls : List String) (text : String) : Prop where
  read : t.readText file = .ok text
  parses : ∃ doc, Document.parse text = .ok doc
  lines : ls.Sublist (solid text.toList)

/-- A text that can be read and is blank or parses is followed by one with all its lines. -/
def Kept (file : Path) (t t' : Tree) : Prop :=
  ∀ text, t.readText file = .ok text → (isSolid text = false ∨ ∃ doc, Document.parse text = .ok doc) →
    t'.readText file = .ok text ∨ ∃ text', Holds t' file (solid text.toList) text'

variable {t t' t'' : Tree} {file : Path} {w w' : Workspace} {c d : Call} {calls pre mid post : List Call}
  {text text' : String} {doc : Document} {ls : List String}

section Text

theorem isSolid_of_mem_solid {raw : String} (h : raw ∈ solid text.toList) : isSolid text = true := by
  obtain ⟨c, hc, hb⟩ := Text.isSolid_iff.1 (Text.isSolid_of_mem_solid h)
  exact Text.isSolid_iff.2 ⟨c, (mem_lines (List.mem_of_mem_filter h)).2.mem hc, hb⟩

theorem solid_of_blank (h : isSolid text = false) : solid text.toList = [] :=
  List.eq_nil_iff_forall_not_mem.2 fun raw hraw => by
    rw [isSolid_of_mem_solid hraw] at h
    cases h

theorem isSolid_of_parse (h : Document.parse text = .ok doc) : isSolid text = true := by
  obtain ⟨stage, hreach, hne⟩ := parse_ok_iff.1 ⟨doc, h⟩
  cases hs : solid text.toList with
  | nil =>
    rw [hs] at hreach
    cases hreach
    exact absurd rfl hne
  | cons raw ls => exact isSolid_of_mem_solid (hs ▸ List.mem_cons_self ..)

theorem Call.Packaged.parses (h : c.Packaged) :
    '\r' ∉ c.boilerplate.toList ∧ ∃ doc, Document.parse c.boilerplate = .ok doc := by
  -- The characters of a long text are found much faster part by part.
  have hapi : '\r' ∉ apiBoilerplate.toList ∧
      reach .beforeMarker (solid apiBoilerplate.toList) = some .body := by
    simp only [apiBoilerplate, String.toList_append]
    decide +kernel
  have hweb : '\r' ∉ webBoilerplate.toList ∧
      reach .beforeMarker (solid webBoilerplate.toList) = some .body := by
    simp only [webBoilerplate, String.toList_append]
    decide +kernel
  rcases h with h | h
  · rw [h]; exact ⟨hapi.1, parse_ok_iff.2 ⟨_, hapi.2, by decide⟩⟩
  · rw [h]; exact ⟨hweb.1, parse_ok_iff.2 ⟨_, hweb.2, by decide⟩⟩

end Text

namespace Call.Clean

theorem fits (h : c.Clean) : c.Fits where
  imports doc := by
    unfold importLines
    split
    · exact ⟨.header, rfl⟩
    · have hn : '\n' ∉ (importOf c.fqcn).toList := by rw [toList_importOf]; simp [h.fqcn_newline]
      have hr : '\r' ∉ (importOf c.fqcn).toList := by rw [toList_importOf]; simp [h.fqcn_return]
      rw [readBack_line hn hr, if_pos (isSolid_importOf _)]
      exact ⟨_, by rw [reach_cons, after?_header (isSolid_importOf _)]; rfl⟩
  block l hl := by
    rw [blockLines_eq h.block_return] at hl
    exact isImport_of_mem_keptLines hl
  token := blockLines_eq h.block_return ▸ h.token
  newline hn := by
    obtain ⟨raw, hraw, ht⟩ := h.token
    obtain ⟨q, -, hin⟩ := holdsToken_iff_infix.1 ht
    exact (mem_lines (List.mem_of_mem_filter hraw)).1 (hin.mem (by simp [hn]))

end Call.Clean

section Step

theorem not_readText_of_missing
    (h : ∀ mode bytes, t.entryAt (file.resolveFrom t.home) ≠ some (.file mode bytes)) :
    t.readText file ≠ .ok text := fun hr => by
  obtain ⟨mode, bytes, -, -, hf, -⟩ := Tree.readText_eq_ok.1 hr
  exact h mode bytes (Tree.find_eq_resolve hf)

theorem Ready.parses_of_startsFrom (h : Ready t file calls) (hc : c ∈ calls)
    (hs : StartsFrom t file c.boilerplate text) :
    '\r' ∉ text.toList ∧ ∃ doc, Document.parse text = .ok doc := by
  cases hs with
  | present read solid =>
    refine ⟨Tree.notMem_of_readText read, ?_⟩
    cases h with
    | parses read' parse => rw [read] at read'; cases read'; exact ⟨_, parse⟩
    | blank read' blank => rw [read] at read'; cases read'; rw [solid] at blank; cases blank
    | missing missing => exact absurd read (not_readText_of_missing missing)
  | blank read blank =>
    cases h with
    | parses read' parse =>
      rw [read] at read'
      cases read'
      rw [isSolid_of_parse parse] at blank
      cases blank
    | blank _ _ packaged => exact (packaged c hc).parses
    | missing _ packaged => exact (packaged c hc).parses
  | missing stands =>
    cases h with
    | parses read parse => rw [Tree.stands_of_readText read] at stands; cases stands
    | blank _ _ packaged => exact (packaged c hc).parses
    | missing _ packaged => exact (packaged c hc).parses

/-- A call that starts from a text that parses registers its routes, in a text that has all the lines of
the old one, finds them registered, or changes no file. -/
theorem wp_merge_of_parses (hs : StartsFrom w.tree file c.boilerplate text) (hr : '\r' ∉ text.toList)
    (hp : Document.parse text = .ok doc) (hfits : c.Fits) :
    wp (c.merge file)
      (fun r w' => (r = .alreadyPresent ∧ holdsToken text c.token = true ∧ w'.tree = w.tree) ∨
        (r = .inserted ∧ ∃ text', Edit.Replaced w.tree file text' w'.tree ∧
          Holds w'.tree file (solid text.toList) (reread text') ∧ holdsToken (reread text') c.token = true))
      (fun f w' => f.Refuses file ∧ w.tree.Extends w'.tree) w := by
  cases ht : holdsToken text c.token with
  | true =>
    obtain ⟨log, hm⟩ := merge_registered hs hp ht c.block c.fqcn
    exact (wp_ok hm).2 (.inl ⟨rfl, rfl, rfl⟩)
  | false =>
    obtain ⟨log, hm⟩ := merge_unregistered hs hp ht c.block c.fqcn
    have hw := Edit.wp_replaceFile file
      (((doc.withImport (importOf c.fqcn)).1.withBlock c.block).render) w.tree
    split at hm
    · next record t hreplace =>
      have hreplaced := (wp_ok hreplace).1 hw
      obtain ⟨raw, hraw, hheld⟩ := hfits.token
      refine (wp_ok hm).2 (.inr ⟨rfl, _, hreplaced, ⟨Tree.readText_of_replaced hreplaced, ?_, ?_⟩, ?_⟩)
      · exact parse_reread hr hp (hfits.imports doc) hfits.block
      · exact solid_sublist_reread hr hp
      · exact holdsToken_of_mem_solid (blockLines_subset_reread hr hp hraw) hheld
    · next f t hreplace => exact (wp_error hm).2 ((wp_error hreplace).1 hw)

theorem wp_merge (h : Ready w.tree file calls) (hc : c ∈ calls) (hfits : c.Fits) :
    wp (c.merge file)
      (fun r w' => (r = .alreadyPresent ∧ w'.tree = w.tree) ∨
        (r = .inserted ∧ ∃ text text', StartsFrom w.tree file c.boilerplate text ∧
          Holds w'.tree file (solid text.toList) text' ∧ holdsToken text' c.token = true))
      (fun f w' => (f.Refuses file ∨ f = .notUtf8) ∧ w.tree.Extends w'.tree) w := by
  rcases merge_cases file c.names c.block c.fqcn c.boilerplate w with ⟨text, hs⟩ | ⟨f, hf, hm⟩
  · obtain ⟨hr, doc, hp⟩ := h.parses_of_startsFrom hc hs
    refine wp_mono (wp_merge_of_parses hs hr hp hfits) ?_ fun f w' h => ⟨.inl h.1, h.2⟩
    rintro r w' (⟨hr, -, ht⟩ | ⟨hr, text', -, hh, ht⟩)
    · exact .inl ⟨hr, ht⟩
    · exact .inr ⟨hr, text, _, hs, hh, ht⟩
  · exact (wp_error hm).2 ⟨hf.imp_right And.left, .refl _⟩

end Step

section Run

theorem Ready.of_extends (h : Ready t file calls) (he : t.Extends t') : Ready t' file calls := by
  cases h with
  | parses read parse => exact .parses (Tree.readText_of_extends he read) parse
  | blank read blank packaged => exact .blank (Tree.readText_of_extends he read) blank packaged
  | missing missing packaged =>
    refine .missing (fun mode bytes hf => ?_) packaged
    rw [he.home] at hf
    exact missing mode bytes (he.file_iff.1 hf)

theorem Kept.of_extends (he : t.Extends t') : Kept file t t' :=
  fun _ hr _ => .inl (Tree.readText_of_extends he hr)

theorem Kept.trans (h : Kept file t t') (h' : Kept file t' t'') : Kept file t t'' := by
  intro text hr hp
  rcases h text hr hp with hr' | ⟨text', hh⟩
  · exact h' text hr' hp
  · rcases h' text' hh.read (.inr hh.parses) with hr'' | ⟨text'', hh'⟩
    · exact .inr ⟨text', hr'', hh.parses, hh.lines⟩
    · exact .inr ⟨text'', hh'.read, hh'.parses, hh.lines.trans hh'.lines⟩

/-- What a text that parses says, later texts say too. -/
theorem Kept.holds (h : Kept file t t') (hh : Holds t file ls text) :
    ∃ text', Holds t' file ls text' ∧ (solid text.toList).Sublist (solid text'.toList) := by
  rcases h text hh.read (.inr hh.parses) with hr | ⟨text', hh'⟩
  · exact ⟨text, ⟨hr, hh.parses, hh.lines⟩, .refl _⟩
  · exact ⟨text', ⟨hh'.read, hh'.parses, hh.lines.trans hh'.lines⟩, hh'.lines⟩

theorem Kept.of_startsFrom {boilerplate : String} (hs : StartsFrom t file boilerplate text)
    (hh : Holds t' file (solid text.toList) text') : Kept file t t' := by
  intro raw hr hp
  cases hs with
  | present read solid => rw [read] at hr; cases hr; exact .inr ⟨text', hh⟩
  | blank read blank =>
    rw [read] at hr
    cases hr
    exact .inr ⟨text', hh.read, hh.parses, by rw [solid_of_blank blank]; exact List.nil_sublist _⟩
  | missing stands => rw [Tree.stands_of_readText hr] at stands; cases stands

/-- The step of the run: the calls stay ready, and the file keeps its lines. -/
theorem ready_step (h : Ready w.tree file calls) (hc : c ∈ calls) (hfits : c.Fits) :
    Ready (run file [c] w).tree file calls ∧ Kept file w.tree (run file [c] w).tree := by
  have hw := wp_merge h hc hfits
  unfold run
  split
  · next r w' hm =>
    rw [wp_ok hm] at hw
    rcases hw with ⟨-, ht⟩ | ⟨-, text, text', hs, hh, -⟩
    · rw [run, ht]
      exact ⟨h, .of_extends (.refl _)⟩
    · exact ⟨.parses hh.read hh.parses.choose_spec, .of_startsFrom hs hh⟩
  · next f w' hm =>
    rw [wp_error hm] at hw
    exact ⟨h.of_extends hw.2, .of_extends hw.2⟩

theorem run_append (file : Path) (pre post : List Call) (w : Workspace) :
    run file (pre ++ post) w = run file post (run file pre w) := by
  induction pre generalizing w with
  | nil => rfl
  | cons c pre ih =>
    simp only [List.cons_append, run]
    split <;> exact ih _

theorem ready_run (h : Ready w.tree file calls) (hfits : ∀ c ∈ calls, c.Fits) (hpre : pre ⊆ calls) :
    Ready (run file pre w).tree file calls ∧ Kept file w.tree (run file pre w).tree := by
  induction pre generalizing w with
  | nil => exact ⟨h, .of_extends (.refl _)⟩
  | cons c pre ih =>
    have hc := hpre (List.mem_cons_self ..)
    obtain ⟨hready, hkept⟩ := ready_step h hc (hfits c hc)
    obtain ⟨hready', hkept'⟩ := ih hready fun d hd => hpre (List.mem_cons_of_mem _ hd)
    rw [← List.singleton_append, run_append]
    exact ⟨hready', hkept.trans hkept'⟩

end Run

section Safe

/-- What holds of every moment of a run, which is after some of the calls. -/
structure Safe (file : Path) (w : Workspace) (calls : List Call) : Prop where
  /-- No call finds the layout of the file broken. -/
  intact : ∀ pre c post, calls = pre ++ c :: post → ∀ path flaw w',
    c.merge file (run file pre w) ≠ .error (.corruptRoutes path flaw) w'
  /-- After routes were inserted, all calls with their token leave every file alone. -/
  once : ∀ pre c mid d post w', calls = pre ++ c :: mid ++ d :: post → d.token = c.token →
    c.merge file (run file pre w) = .ok .inserted w' →
    ∃ w'', d.merge file (run file (pre ++ c :: mid) w) = .ok .alreadyPresent w'' ∧
      w''.tree = (run file (pre ++ c :: mid) w).tree
  /-- The lines of the first text stay. -/
  kept : ∀ pre post text, calls = pre ++ post → w.tree.readText file = .ok text →
    ∃ text', (run file pre w).tree.readText file = .ok text' ∧
      (solid text.toList).Sublist (Text.lines text')
  /-- The lines of a text that routes were inserted into stay, also where it was the boilerplate. -/
  started : ∀ pre c mid post w', calls = pre ++ c :: mid ++ post →
    c.merge file (run file pre w) = .ok .inserted w' →
    ∃ text text', StartsFrom (run file pre w).tree file c.boilerplate text ∧
      (run file (pre ++ c :: mid) w).tree.readText file = .ok text' ∧
      (solid text.toList).Sublist (Text.lines text')

/-- Routes that were inserted stay, in a text that keeps its layout and its lines. -/
theorem holds_of_inserted (h : Ready w.tree file calls) (hfits : ∀ c ∈ calls, c.Fits)
    (hc : c ∈ calls) (hpre : pre ⊆ calls) (hmid : mid ⊆ calls)
    (hm : c.merge file (run file pre w) = .ok .inserted w') :
    ∃ text text', StartsFrom (run file pre w).tree file c.boilerplate text ∧
      Holds (run file (pre ++ c :: mid) w).tree file (solid text.toList) text' ∧
      holdsToken text' c.token = true := by
  obtain ⟨hready, -⟩ := ready_run h hfits hpre
  have hw := wp_merge hready hc (hfits c hc)
  rw [wp_ok hm] at hw
  rcases hw with ⟨hr, -⟩ | ⟨-, text, text', hs, hh, ht⟩
  · cases hr
  have hready' : Ready w'.tree file calls := .parses hh.read hh.parses.choose_spec
  have hrun : run file (pre ++ c :: mid) w = run file mid w' := by
    rw [run_append]
    simp only [run, hm]
  obtain ⟨text'', hh', hsub⟩ := (ready_run hready' hfits hmid).2.holds hh
  rw [hrun]
  exact ⟨text, text'', hs, hh', holdsToken_mono (hfits c hc).newline hsub.subset ht⟩

theorem safe_of_fits (h : Ready w.tree file calls) (hfits : ∀ c ∈ calls, c.Fits) :
    Safe file w calls where
  intact pre c post hcalls path flaw w' hm := by
    subst hcalls
    have hw := wp_merge (ready_run h hfits (List.subset_append_left ..)).1 (by simp)
      (hfits c (by simp))
    rw [wp_error hm] at hw
    rcases hw.1 with (⟨hf, -⟩ | ⟨e, hf⟩) | hf <;> cases hf
  once pre c mid d post w' hcalls htoken hm := by
    subst hcalls
    have hmid : mid ⊆ pre ++ c :: mid ++ d :: post := fun _ hx => by simp [hx]
    obtain ⟨text, text', hs, hh, ht⟩ := holds_of_inserted h hfits (by simp) (by simp) hmid hm
    obtain ⟨doc, hp⟩ := hh.parses
    have hs' : StartsFrom _ file d.boilerplate text' := .present hh.read (isSolid_of_parse hp)
    obtain ⟨log, hm'⟩ := merge_registered hs' hp (htoken ▸ ht) d.block d.fqcn
    exact ⟨_, hm', rfl⟩
  kept pre post text hcalls hr := by
    subst hcalls
    have hgood : isSolid text = false ∨ ∃ doc, Document.parse text = .ok doc := by
      cases h with
      | parses read parse => rw [read] at hr; cases hr; exact .inr ⟨_, parse⟩
      | blank read blank => rw [read] at hr; cases hr; exact .inl blank
      | missing missing => exact absurd hr (not_readText_of_missing missing)
    rcases (ready_run h hfits (List.subset_append_left ..)).2 text hr hgood with hr' | ⟨text', hh⟩
    · exact ⟨text, hr', Text.solid_sublist_lines text⟩
    · exact ⟨text', hh.read, hh.lines.trans (Text.solid_sublist_lines text')⟩
  started pre c mid post w' hcalls hm := by
    subst hcalls
    have hmid : mid ⊆ pre ++ c :: mid ++ post := fun _ hx => by simp [hx]
    obtain ⟨text, text', hs, hh, -⟩ := holds_of_inserted h hfits (by simp) (by simp) hmid hm
    exact ⟨text, text', hs, hh.read, hh.lines.trans (Text.solid_sublist_lines text')⟩

/-- No sequence of calls breaks a route file, registers an entity twice or loses a line. -/
theorem merges_safe (h : Ready w.tree file calls) (hclean : ∀ c ∈ calls, c.Clean) : Safe file w calls :=
  safe_of_fits h fun c hc => (hclean c hc).fits

theorem merges_safe_books :
    let books : Call := ⟨⟨.ofPascal "Book", .ofPascal "Books"⟩, "use A;\n\nRoute::apiResource('books');",
      "App\\BookController", apiBoilerplate⟩
    let pages : Call := ⟨⟨.ofPascal "Page", .ofPascal "Pages"⟩, "Route::apiResource(\"pages\");",
      "App\\PageController", webBoilerplate⟩
    Safe ⟨.relative, ["api.php"]⟩ (Workspace.start ⟨["srv"], []⟩) [books, pages, books] := by
  intro books pages
  have hbooks : books.Clean :=
    ⟨by decide +kernel, by decide +kernel, by decide +kernel, by decide +kernel⟩
  have hpages : pages.Clean :=
    ⟨by decide +kernel, by decide +kernel, by decide +kernel, by decide +kernel⟩
  refine merges_safe (.missing (fun _ _ h => by cases h) ?_) ?_
  · simp [Call.Packaged, books, pages]
  · simp [hbooks, hpages]

end Safe

end Scaffold.Route
