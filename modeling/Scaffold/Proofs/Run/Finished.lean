import Scaffold.Proofs.Run.Block
import Scaffold.Proofs.Run.Frame
import Scaffold.Proofs.Run.Outcome

/-!
# Artifacts that leave nothing to do

An artifact is `Finished` once its templates are found and its files are such that a second attempt
would skip it: a class or a view stands, a route file parses and holds the quoted name of the entity.
An attempt that does not fail finishes its artifact (`Outcome.finished`), and no later one undoes that
(`Finished.mono`), also where route files coincide with each other or with a class: all paths lie below
one base, so two of them lead to one place only if they are the same.
-/

namespace Scaffold
open Route (StartsFrom Holds Document holdsToken)
open Text (solid)

variable {t₀ t t' : Tree} {may fresh : Location → Prop} {fixed : Path → String → Prop} {w w' : Workspace}
  {base p q : Path} {text token : String}

/-- A route file that parses and holds the quoted name. -/
def Registered (t : Tree) (p : Path) (token : String) : Prop :=
  ∃ text, t.readText p = .ok text ∧ (∃ doc, Document.parse text = .ok doc) ∧ holdsToken text token = true

theorem Edit.Replaced.grows (h : Edit.Replaced t p text t') : t.Grows t' :=
  ((Frame.refl t (fun _ => True) fun _ => True).of_replaced h (fun _ _ _ => trivial) trivial).grows

namespace Registered

theorem of_extends (h : Registered t p token) (he : t.Extends t') : Registered t' p token := by
  obtain ⟨text, hread, hrest⟩ := h
  exact ⟨text, Tree.readText_of_extends he hread, hrest⟩

theorem of_replaced (h : Registered t p token) (hr : Edit.Replaced t q text t')
    (hne : q.resolveFrom t.home ≠ p.resolveFrom t.home) : Registered t' p token := by
  obtain ⟨text', hread, hrest⟩ := h
  have hframe : Frame t (· = q.resolveFrom t.home) (fun _ => True) t' :=
    (Frame.refl t _ _).of_replaced hr (fun _ _ _ => rfl) trivial
  exact ⟨text', hframe.readText (Ne.symm hne) hread, hrest⟩

theorem stands (h : Registered t p token) : t.stands p = .ok true := by
  obtain ⟨text, hread, -⟩ := h
  exact Tree.stands_of_readText hread

theorem write_keeps (hp : Path.Below base p) (hq : Path.Below base q) :
    Keeps (fun w => Registered w.tree p token) (Writer.write q text false) := by
  refine ⟨fun w hw => wp_mono (Writer.wp_write q text false w) ?_ fun _ _ h => hw.of_extends h.2.2⟩
  rintro written w' ⟨-, heffect⟩
  generalize w'.tree = t' at heffect ⊢
  cases heffect with
  | left => exact hw
  | replaced hclear hr =>
    -- a file that stands is left alone, so the one that was replaced is another
    refine hw.of_replaced hr fun e => ?_
    have hthere := hclear rfl
    rw [hq.inj hp e, hw.stands] at hthere
    cases hthere

end Registered

namespace Route
variable {call : Call}

/-- What a merge that returns has found and done. -/
structure Merged (call : Call) (q : Path) (t t' : Tree) : Prop where
  grows : t.Grows t'
  /-- The routes are in the file, unless it has none of its own and starts from a text that has them. -/
  registered : Registered t' q call.token ∨ holdsToken call.boilerplate call.token = true
  kept : ∀ base p token, Path.Below base p → Path.Below base q → '\n' ∉ token.toList →
    Registered t p token → Registered t' p token

theorem wp_merge_returns (hfits : call.Fits) (hpack : call.Packaged) (q : Path) (w : Workspace) :
    wp (call.merge q) (fun _ w' => Merged call q w.tree w'.tree) (fun _ _ => True) w := by
  rcases merge_cases q call.names call.block call.fqcn call.boilerplate w with ⟨text, hs⟩ | ⟨f, -, hm⟩
  swap
  · exact (wp_error hm).2 trivial
  cases hp : Document.parse text with
  | error flaw =>
    obtain ⟨log, hm⟩ := merge_corrupt hs hp call.names call.block call.fqcn
    exact (wp_error hm).2 trivial
  | ok doc =>
    have hr : '\r' ∉ text.toList := by
      cases hs with
      | present read => exact Tree.notMem_of_readText read
      | blank => exact hpack.parses.1
      | missing => exact hpack.parses.1
    refine wp_mono (wp_merge_of_parses hs hr hp hfits) ?_ fun _ _ _ => trivial
    rintro r w' (⟨-, ht, htree⟩ | ⟨-, text', hreplaced, hholds, ht⟩)
    · refine ⟨htree ▸ .refl _, ?_, fun _ _ _ _ _ _ h => htree ▸ h⟩
      cases hs with
      | present read => exact .inl ⟨text, htree ▸ read, ⟨doc, hp⟩, ht⟩
      | blank => exact .inr ht
      | missing => exact .inr ht
    · refine ⟨hreplaced.grows, .inl ⟨_, hholds.read, hholds.parses, ht⟩, ?_⟩
      rintro base p token hbelow hbelow' hn ⟨old, hread, ⟨doc', hparse⟩, htoken⟩
      by_cases hpq : p = q
      · -- what the merge started from is the text that holds the token
        subst hpq
        have hold : text = old := by
          cases hs with
          | present read => rw [hread] at read; exact (Except.ok.inj read).symm
          | blank read blank =>
            rw [hread] at read
            cases read
            rw [isSolid_of_parse hparse] at blank
            cases blank
          | missing stands => rw [Tree.stands_of_readText hread] at stands; cases stands
        subst hold
        exact ⟨_, hholds.read, hholds.parses, holdsToken_mono hn hholds.lines.subset htoken⟩
      · exact Registered.of_replaced ⟨old, hread, ⟨doc', hparse⟩, htoken⟩ hreplaced
          fun e => hpq (hbelow.inj hbelow' e.symm)

end Route

theorem Writer.stands_of_write (p : Path) (text : String) (force : Bool) (w : Workspace) :
    wp (Writer.write p text force) (fun _ w' => w.tree.Grows w'.tree ∧ w'.tree.stands p = .ok true)
      (fun _ _ => True) w := by
  refine wp_mono (Writer.wp_write p text force w) ?_ fun _ _ _ => trivial
  rintro written w' ⟨-, heffect⟩
  generalize w'.tree = t' at heffect ⊢
  cases heffect with
  | left _ hstands => exact ⟨.refl _, hstands⟩
  | replaced _ hr => exact ⟨hr.grows, Tree.stands_eq_true.2 ⟨_, hr.noNull, hr.find⟩⟩

theorem Layout.below_files {config : Config} {o : Options} {names : Naming} {c : Category} {k : Kind}
    (ha : Accepted config o) (hn : names.Spelled)
    (hp : p ∈ Layout.files config names (Layout.version config o.apiVersion) c k) :
    Path.Below config.basePath p := by
  unfold Layout.files at hp
  split at hp
  · cases hp
  · next t ht =>
    have hbelow := Layout.below_target ha hn ht
    split at hp
    · obtain ⟨v, -, rfl⟩ := List.mem_map.1 hp
      exact hbelow.join (by cases v <;> decide +kernel)
    · rw [List.mem_singleton.1 hp]
      exact hbelow

namespace Generator
variable {run : Run} {o : Options} {c : Category} {k : Kind}

/-- A template of an artifact is named and has a file at one of its places. -/
def Found (run : Run) (t : Tree) (c : Category) (k : Kind) (v : Option String) : Prop :=
  ∃ id, Layout.templateId run.config c k v = .ok id ∧ ∃ q ∈ run.renderer.places id, t.isFile q = .ok true

/-- An artifact that a further attempt would skip. -/
structure Finished (run : Run) (t : Tree) (c : Category) (k : Kind) : Prop where
  target : ∃ tgt, Layout.target run.config run.names run.version c k = .ok tgt
  templates : ∀ v ∈ viewsOf k, Found run t c k v
  files : ∀ p ∈ Layout.files run.config run.names run.version c k,
    if k = .routes then Registered t p run.names.many.kebab else t.stands p = .ok true

theorem Found.mono {v : Option String} (h : Found run t c k v) (hg : t.Grows t') : Found run t' c k v := by
  obtain ⟨id, hid, q, hq, hfile⟩ := h
  exact ⟨id, hid, q, hq, hg.isFile hfile⟩

theorem Finished.mono (h : Finished run t c k) (hg : t.Grows t')
    (hreg : ∀ p ∈ Layout.files run.config run.names run.version c k,
      Registered t p run.names.many.kebab → Registered t' p run.names.many.kebab) :
    Finished run t' c k := by
  refine ⟨h.target, fun v hv => (h.templates v hv).mono hg, fun p hp => ?_⟩
  have hfile := h.files p hp
  by_cases hk : k = .routes
  · rw [if_pos hk] at hfile ⊢
    exact hreg p hp hfile
  · rw [if_neg hk] at hfile ⊢
    exact hg.stands hfile

section Attempt

/-- What is fixed for a run and was checked before it. The last three fields are about the templates of
routes, the opening lines of their groups and the first contents of route files. -/
structure Setting (run : Run) (o : Options) (t₀ : Tree) (may fresh : Location → Prop)
    (fixed : Path → String → Prop) : Prop where
  accepted : Accepted run.config o
  spelled : run.names.Spelled
  version : run.version = Layout.version run.config o.apiVersion
  force : run.force = false
  steady : Fixed t₀ may fixed
  writable : ∀ c k, (c, k) ∈ o.planned → ∀ p ∈ Layout.files run.config run.names run.version c k,
    Writable t₀ may fresh run.force k p
  stub : ∀ c id, (c, .routes) ∈ o.planned → Layout.templateId run.config c .routes none = .ok id →
    (∃ q, Renderer.firstFile? t₀ (run.renderer.places id) = .ok (some q) ∧ fixed q (routeStub c)) ∧
      ∀ q ∈ run.renderer.places id, Tree.Short q ∧ t₀.Reaches q ∧ ¬ fresh (q.resolveFrom t₀.home)
  opening : ∀ c, (c, .routes) ∈ o.planned → ∀ l ∈ Route.blockLines (Route.groupOpening
    (middleware run.config c) (routePrefix run.config run.version c)), Route.isImport (Text.stripped l) = false
  greeting : ∀ c, (c, .routes) ∈ o.planned → holdsToken (boilerplate c) run.names.many.kebab = false

theorem Setting.below (h : Setting run o t₀ may fresh fixed)
    (hp : p ∈ Layout.files run.config run.names run.version c k) : Path.Below run.config.basePath p :=
  Layout.below_files h.accepted h.spelled (h.version ▸ hp)

theorem wp_classFile (hk : k ≠ .routes) (hviews : k ≠ .views) (w : Workspace) :
    wp (classFile run c k) (fun _ w' => Finished run w'.tree c k) (fun _ _ => True) w := by
  unfold classFile
  rw [wp_bind, wp_ofExcept']
  cases ht : Layout.target run.config run.names run.version c k with
  | error f => trivial
  | ok tgt =>
    simp only
    refine wp_template (none_mem_viewsOf hviews) w (fun _ _ _ _ => trivial) ?_
    rintro id content w₁ hid ⟨htree, hfirst, -⟩
    rw [wp_bind]
    refine wp_mono (Writer.stands_of_write tgt.path _ run.force w₁) ?_ fun _ _ _ => trivial
    rintro written w₂ ⟨hgrows, hstands⟩
    obtain ⟨hmem, hfile⟩ := Renderer.firstFile?_some hfirst
    rw [wp_pure]
    refine ⟨⟨tgt, ht⟩, fun v hv => ?_, fun p hp => ?_⟩
    · simp only [viewsOf, hviews, ↓reduceIte, List.mem_singleton] at hv
      subst hv
      exact ⟨id, hid, _, hmem, hgrows.isFile (htree ▸ hfile)⟩
    · simp only [Layout.files, Layout.target_eq ht, hviews, ↓reduceIte, List.mem_singleton] at hp
      rw [if_neg hk, hp]
      exact hstands

theorem wp_mapM_grows {α β : Type} {P : α → Tree → Prop} {f : α → Action β}
    (hmono : ∀ a t t', P a t → t.Grows t' → P a t')
    {as : List α}
    (hf : ∀ a ∈ as, ∀ w, wp (f a) (fun _ w' => w.tree.Grows w'.tree ∧ P a w'.tree) (fun _ _ => True) w)
    (w : Workspace) :
    wp (as.mapM f) (fun _ w' => w.tree.Grows w'.tree ∧ ∀ a ∈ as, P a w'.tree) (fun _ _ => True) w := by
  induction as generalizing w with
  | nil =>
    rw [List.mapM_nil, wp_pure]
    exact ⟨.refl _, by simp⟩
  | cons a as ih =>
    rw [List.mapM_cons, wp_bind]
    refine wp_mono (hf a (List.mem_cons_self ..) w) (fun _ w₁ h₁ => ?_) fun _ _ _ => trivial
    rw [wp_bind]
    refine wp_mono (ih (fun a ha => hf a (List.mem_cons_of_mem _ ha)) w₁) (fun _ w₂ h₂ => (wp_pure _).2 ?_)
      fun _ _ _ => trivial
    refine ⟨h₁.1.trans h₂.1, fun b hb => ?_⟩
    rcases List.mem_cons.1 hb with rfl | hb
    · exact hmono b _ _ h₁.2 h₂.1
    · exact h₂.2 b hb

theorem wp_view (directory : Path) {v : View} (hv : v ∈ View.all) (w : Workspace) :
    wp (view run c directory v)
      (fun _ w' => w.tree.Grows w'.tree ∧ Found run w'.tree c .views (some v.name) ∧
        w'.tree.stands (directory / (v.name ++ ".blade.php")) = .ok true)
      (fun _ _ => True) w := by
  unfold view
  refine wp_template (mem_viewsOf_views hv) w (fun _ _ _ _ => trivial) ?_
  rintro id content w₁ hid ⟨htree, hfirst, -⟩
  refine wp_mono (Writer.stands_of_write _ _ run.force w₁) ?_ fun _ _ _ => trivial
  rintro written w₂ ⟨hgrows, hstands⟩
  obtain ⟨hmem, hfile⟩ := Renderer.firstFile?_some hfirst
  rw [htree] at hgrows
  exact ⟨hgrows, ⟨id, hid, _, hmem, hgrows.isFile hfile⟩, hstands⟩

theorem wp_views (w : Workspace) :
    wp (views run c) (fun _ w' => Finished run w'.tree c .views) (fun _ _ => True) w := by
  unfold views
  rw [wp_bind, wp_ofExcept']
  cases ht : Layout.target run.config run.names run.version c .views with
  | error f => trivial
  | ok tgt =>
    simp only
    rw [wp_bind]
    have hmono : ∀ (v : View) (t t' : Tree), Found run t c .views (some v.name) ∧
        t.stands (tgt.path / (v.name ++ ".blade.php")) = .ok true → t.Grows t' →
        Found run t' c .views (some v.name) ∧ t'.stands (tgt.path / (v.name ++ ".blade.php")) = .ok true :=
      fun v t t' hv hg => ⟨hv.1.mono hg, hg.stands hv.2⟩
    refine wp_mono (wp_mapM_grows hmono (fun v hv => wp_view tgt.path hv) w) ?_ fun _ _ _ => trivial
    rintro written w' ⟨-, hall⟩
    rw [wp_pure]
    refine ⟨⟨tgt, ht⟩, fun v hv => ?_, fun p hp => ?_⟩
    · obtain ⟨view, hview, rfl⟩ := List.mem_map.1 (show v ∈ View.all.map (some ·.name) from hv)
      exact (hall view hview).1
    · simp only [Layout.files, Layout.target_eq ht, ↓reduceIte] at hp
      obtain ⟨v, hv, rfl⟩ := List.mem_map.1 hp
      exact (hall v hv).2

theorem rendered_block (h : Setting run o t₀ may fresh fixed) (hw : Course t₀ may fresh fixed w)
    (hm : (c, .routes) ∈ o.planned) {id : String}
    (hid : Layout.templateId run.config c .routes none = .ok id) {q : Path}
    (hfirst : Renderer.firstFile? w.tree (run.renderer.places id) = .ok (some q))
    (htext : w.cache.lookup q = some text ∨ w.tree.readText q = .ok text) : text = routeStub c := by
  obtain ⟨⟨q₀, hfirst₀, hfixed⟩, hplaces⟩ := h.stub c id hm hid
  rw [hw.frame.firstFile (fun p hp => (hplaces p hp).1) (fun p hp => (hplaces p hp).2.1)
    fun p hp => (hplaces p hp).2.2, hfirst₀] at hfirst
  cases hfirst
  rcases htext with htext | htext
  · exact hw.cache q _ text hfixed htext
  · obtain ⟨hread, hkept⟩ := h.steady q _ hfixed
    rw [hw.frame.readText hkept hread] at htext
    exact (Except.ok.inj htext).symm

theorem wp_routes (h : Setting run o t₀ may fresh fixed) (hw : Course t₀ may fresh fixed w)
    (hm : (c, .routes) ∈ o.planned) :
    wp (routes run c)
      (fun _ w' => Finished run w'.tree c .routes ∧
        ∀ p, Path.Below run.config.basePath p → Registered w.tree p run.names.many.kebab →
          Registered w'.tree p run.names.many.kebab)
      (fun _ _ => True) w := by
  unfold routes
  rw [wp_bind, wp_ofExcept']
  cases ht : Layout.target run.config run.names run.version c .routes with
  | error f => trivial
  | ok tgt =>
    have hfits := fits_routeCall h.accepted h.spelled h.version (Layout.target_eq ht) (h.opening c hm)
    have htoken : '\n' ∉ run.names.many.kebab.toList := hfits.newline
    have hfile : tgt.path ∈ Layout.files run.config run.names run.version c .routes := by
      simp [Layout.files, Layout.target_eq ht]
    simp only
    refine wp_template (none_mem_viewsOf (by simp)) w (fun _ _ _ _ => trivial) ?_
    rintro id content w₁ hid ⟨htree, hfirst, hsource⟩
    rw [rendered_block h hw hm hid hfirst (hsource.imp And.left And.left), wp_bind]
    refine wp_mono (Route.wp_merge_returns hfits (packaged_boilerplate run c tgt) tgt.path w₁) ?_
      fun _ _ _ => trivial
    rintro r w₂ hmerged
    obtain ⟨hmem, hthere⟩ := Renderer.firstFile?_some hfirst
    have hregistered : Registered w₂.tree tgt.path run.names.many.kebab := by
      refine hmerged.registered.resolve_right fun hgreeting => ?_
      have hnone := h.greeting c hm
      rw [show holdsToken (boilerplate c) run.names.many.kebab = true from hgreeting] at hnone
      cases hnone
    rw [wp_pure]
    refine ⟨⟨⟨tgt, ht⟩, fun v hv => ?_, fun p hp => ?_⟩, fun p hp hreg => ?_⟩
    · simp only [viewsOf, reduceCtorEq, ↓reduceIte, List.mem_singleton] at hv
      subst hv
      exact ⟨id, hid, _, hmem, hmerged.grows.isFile (htree ▸ hthere)⟩
    · simp only [Layout.files, Layout.target_eq ht, reduceCtorEq, ↓reduceIte, List.mem_singleton] at hp
      rw [if_pos rfl, hp]
      exact hregistered
    · exact hmerged.kept _ p _ hp (h.below hfile) htoken (htree ▸ hreg)

/-- Classes and views leave the routes in their file. -/
theorem artifact_keeps_registered (h : Setting run o t₀ may fresh fixed) (hk : k ≠ .routes)
    (hp : Path.Below run.config.basePath p) :
    Keeps (fun w => Registered w.tree p token) (artifact run c k) := by
  have hrender : ∀ id subs, Keeps (fun w => Registered w.tree p token) (run.renderer.render id subs) :=
    fun id subs => ⟨fun w hw =>
      wp_mono (Renderer.wp_render ..) (fun _ _ hs => hs.tree ▸ hw) fun _ _ hs => hs.1.1 ▸ hw⟩
  have hwrite : ∀ q ∈ Layout.files run.config run.names run.version c k, ∀ text,
      Keeps (fun w => Registered w.tree p token) (Writer.write q text run.force) :=
    fun q hq text => h.force ▸ Registered.write_keeps hp (h.below hq)
  exact artifact_keeps hrender (fun _ => hwrite) fun h => absurd h hk

theorem wp_artifact (h : Setting run o t₀ may fresh fixed) (hw : Course t₀ may fresh fixed w)
    (hm : (c, k) ∈ o.planned) :
    wp (artifact run c k)
      (fun _ w' => Finished run w'.tree c k ∧
        ∀ p, Path.Below run.config.basePath p → Registered w.tree p run.names.many.kebab →
          Registered w'.tree p run.names.many.kebab)
      (fun _ _ => True) w := by
  by_cases hk : k = .routes
  · subst hk
    exact wp_routes h hw hm
  have hfinished : wp (artifact run c k) (fun _ w' => Finished run w'.tree c k) (fun _ _ => True) w := by
    cases k with
    | views => exact wp_views w
    | routes => exact absurd rfl hk
    | _ => exact wp_classFile (by simp) (by simp) w
  unfold wp at hfinished ⊢
  cases hx : artifact run c k w with
  | error f w' => trivial
  | ok r w' =>
    rw [hx] at hfinished
    exact ⟨hfinished, fun p hp hreg => (wp_ok hx).1 ((artifact_keeps_registered h hk hp).wp w hreg)⟩

/-- An attempt that does not fail finishes its artifact and leaves all that were finished so. -/
theorem Outcome.finished {r : Result} (hr : Outcome run c k w r w') (h : Setting run o t₀ may fresh fixed)
    (hw : Course t₀ may fresh fixed w) (hm : (c, k) ∈ o.planned) :
    Course t₀ may fresh fixed w' ∧ (r.status ≠ .failed → Finished run w'.tree c k ∧
      ∀ c' k', Finished run w.tree c' k' → Finished run w'.tree c' k') := by
  have hkeeps := (artifact_course h.steady (h.writable c k hm)).wp w hw
  have hgrows := hr.stays.grows
  cases hr with
  | returned hx =>
    obtain ⟨hfinished, hkept⟩ := (wp_ok hx).1 (wp_artifact h hw hm)
    exact ⟨(wp_ok hx).1 hkeeps, fun _ => ⟨hfinished, fun c' k' h' =>
      h'.mono hgrows fun p hp => hkept p (h.below hp)⟩⟩
  | failed log hx => exact ⟨Course.logFree _ log ((wp_error hx).1 hkeeps), fun hne => absurd rfl hne⟩

end Attempt

/-- Attempts of which none fails leave all their artifacts finished. -/
theorem Outcomes.finished {rs : List Result} {w₀ : Workspace} (hrs : Outcomes run w₀ rs w)
    (h : Setting run o t₀ may fresh fixed) (hw₀ : Course t₀ may fresh fixed w₀)
    (hplanned : ∀ r ∈ rs, (r.category, r.kind) ∈ o.planned) :
    Course t₀ may fresh fixed w ∧
      ((∀ r ∈ rs, r.status ≠ .failed) → ∀ r ∈ rs, Finished run w.tree r.category r.kind) := by
  induction hrs with
  | start => exact ⟨hw₀, by simp⟩
  | @next rs r w₁ w₂ before outcome ih =>
    obtain ⟨hcourse, hdone⟩ := ih fun x hx => hplanned x (List.mem_append_left _ hx)
    obtain ⟨hcourse', hnext⟩ := outcome.finished h hcourse (hplanned r (by simp))
    refine ⟨hcourse', fun hall x hx => ?_⟩
    obtain ⟨hfinished, hkept⟩ := hnext (hall r (by simp))
    rcases List.mem_append.1 hx with hx | hx
    · exact hkept _ _ (hdone (fun y hy => hall y (List.mem_append_left _ hy)) x hx)
    · rw [List.mem_singleton.1 hx]
      exact hfinished

end Generator

end Scaffold
