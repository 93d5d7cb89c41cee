import Scaffold.Proofs.Route.Insert
import Scaffold.Proofs.Run.Lookup
import Scaffold.Proofs.Run.Pipeline
import Scaffold.Proofs.Tree.Frame

/-!
# What an artifact does

A write leaves a file alone or replaces it (`Writer.wp_write`), and so does a merge (`Route.wp_merge_effect`).
For a whole artifact, `artifact_effect` says which files it has changed when it returns or fails, what its
result says of them, and what it may fail with. A class or a route file changes all or nothing; views that
fail may have been written in part.
-/

namespace Scaffold

variable {t t' : Tree} {p : Path} {w : Workspace}

section Write
variable {text : String} {force : Bool}

/-- What a write that returns has done. -/
inductive Writer.Effect (p : Path) (text : String) (force : Bool) (t : Tree) : Written → Tree → Prop where
  | left (gentle : force = false) (stands : t.stands p = .ok true) : Effect p text force t ⟨p.toString, none⟩ t
  | replaced {record : WrittenFile} {t' : Tree} (clear : force = false → t.stands p = .ok false)
      (replaced : Edit.Replaced t p text t') : Effect p text force t ⟨p.toString, some record⟩ t'

theorem Writer.wp_write (p : Path) (text : String) (force : Bool) (w : Workspace) :
    wp (Writer.write p text force)
      (fun written w' => w'.cache = w.cache ∧ Effect p text force w.tree written w'.tree)
      (fun f w' => w'.cache = w.cache ∧ f.Refuses p ∧ w.tree.Extends w'.tree) w := by
  unfold Writer.write
  rw [wp_bind, wp_look]
  cases hs : w.tree.stands p with
  | error f => exact ⟨rfl, .inr (Tree.stands_error hs), .refl _⟩
  | ok there =>
    simp only [wp_ite, wp_bind, wp_say, wp_pure, wp_edit, wp_modify]
    split
    · next hskip =>
      obtain ⟨rfl, hforce⟩ := Bool.and_eq_true_iff.1 hskip
      exact ⟨trivial, .left (by simpa using hforce) hs⟩
    · next hwrite =>
      have hclear : force = false → w.tree.stands p = .ok false := by
        rintro rfl
        cases there with
        | true => exact absurd rfl hwrite
        | false => exact hs
      exact wp_mono (Edit.wp_replaceFile p text w.tree) (fun _ _ hr => ⟨trivial, .replaced hclear hr⟩)
        fun _ _ hf => ⟨trivial, hf⟩

end Write

namespace Route
variable {names : Naming} {block fqcn boilerplate : String}

/-- What a merge that returns has done. -/
inductive Effect (p : Path) (t : Tree) : Registration → Tree → Prop where
  | left : Effect p t .alreadyPresent t
  | replaced {text : String} {t' : Tree} (replaced : Edit.Replaced t p text t') : Effect p t .inserted t'

/-- Why a merge fails: the file breaks the layout, the file system refuses, or the file is not text. -/
def Spoils (p : Path) (t : Tree) (f : Fault) : Prop :=
  (∃ flaw, f = .corruptRoutes p.toString flaw) ∨ f.Refuses p ∨ f = .notUtf8 ∧ t.Garbled p

theorem wp_conclude (p : Path) (names : Naming) (r : Except RouteFlaw (Option String)) (w : Workspace) :
    wp (conclude p names r) (fun r w' => w'.cache = w.cache ∧ Effect p w.tree r w'.tree)
      (fun f w' => w'.cache = w.cache ∧ Spoils p w.tree f ∧ w.tree.Extends w'.tree) w := by
  rcases r with flaw | _ | new
  · exact (wp_throw _).2 ⟨rfl, .inl ⟨flaw, rfl⟩, .refl _⟩
  · simp only [conclude, wp_bind, wp_say, wp_pure]
    exact ⟨trivial, .left⟩
  · simp only [conclude, wp_bind, wp_edit, wp_say, wp_pure]
    exact wp_mono (Edit.wp_replaceFile p new w.tree) (fun _ _ hr => ⟨trivial, .replaced hr⟩)
      fun _ _ hf => ⟨trivial, .inr (.inl hf.1), hf.2⟩

theorem wp_merge_effect (p : Path) (names : Naming) (block fqcn boilerplate : String) (w : Workspace) :
    wp (merge p names block fqcn boilerplate) (fun r w' => w'.cache = w.cache ∧ Effect p w.tree r w'.tree)
      (fun f w' => w'.cache = w.cache ∧ Spoils p w.tree f ∧ w.tree.Extends w'.tree) w := by
  rcases merge_cases p names block fqcn boilerplate w with ⟨text, hs⟩ | ⟨f, hf, hm⟩
  · obtain ⟨log, hm⟩ := merge_of_startsFrom hs names block fqcn
    rw [wp_eq hm]
    exact wp_conclude p names _ { w with log := log }
  · exact (wp_error hm).2 ⟨rfl, .inr hf, .refl _⟩

end Route

namespace Generator
variable {run : Run} {c : Category} {k : Kind} {r : Result} {f : Fault}

/-- The views whose templates an artifact is made from; none stands for the kind itself. -/
def viewsOf (k : Kind) : List (Option String) :=
  if k = .views then View.all.map (some ·.name) else [none]

theorem none_mem_viewsOf (hviews : k ≠ .views) : none ∈ viewsOf k := by
  simp [viewsOf, hviews]

theorem mem_viewsOf_views {v : View} (hv : v ∈ View.all) : some v.name ∈ viewsOf .views :=
  List.mem_map_of_mem hv

/-- The places where the templates of an artifact are looked for. -/
def templatePlaces (config : Config) (r : Renderer) (c : Category) (k : Kind) : List Path :=
  (viewsOf k).flatMap fun v => match Layout.templateId config c k v with
    | .ok id => r.places id
    | .error _ => []

theorem mem_templatePlaces {config : Config} {r : Renderer} {v : Option String} {id : String}
    (hv : v ∈ viewsOf k) (hid : Layout.templateId config c k v = .ok id) (hp : p ∈ r.places id) :
    p ∈ templatePlaces config r c k :=
  List.mem_flatMap.2 ⟨v, hv, by rw [hid]; exact hp⟩

namespace Run

/-- The files of an artifact. -/
def files (run : Run) (c : Category) (k : Kind) : List Path :=
  Layout.files run.config run.names run.version c k

/-- What an artifact reads: its templates, and routes their file. -/
def reads (run : Run) (c : Category) (k : Kind) : List Path :=
  templatePlaces run.config run.renderer c k ++ if k = .routes then run.files c k else []

/-- Where the files of an artifact stand. -/
def Spot (run : Run) (c : Category) (k : Kind) (home l : Location) : Prop :=
  ∃ p ∈ run.files c k, p.resolveFrom home = l

/-- Only files of the artifact have changed. -/
abbrev Stays (run : Run) (c : Category) (k : Kind) (t t' : Tree) : Prop :=
  Frame t (run.Spot c k t.home) (run.Spot c k t.home) t'

/-- What an artifact that returns has done. -/
inductive Effect (run : Run) (c : Category) (k : Kind) (t : Tree) : Result → Tree → Prop where
  | created {paths : List String} {t' : Tree} (listed : ∀ p ∈ run.files c k, p.toString ∈ paths)
      (stays : run.Stays c k t t') : Effect run c k t ⟨c, k, .created, paths, ""⟩ t'
  | skipped {paths : List String} {reason : String} : Effect run c k t ⟨c, k, .skipped, paths, reason⟩ t

/-- What an artifact may fail with. -/
inductive Mishap (run : Run) (t : Tree) (c : Category) (k : Kind) : Fault → Prop where
  | homeless {f : Fault} (target : Layout.target run.config run.names run.version c k = .error f) :
      Mishap run t c k f
  | unknown {f : Fault} {v : Option String} (view : v ∈ viewsOf k)
      (template : Layout.templateId run.config c k v = .error f) : Mishap run t c k f
  | spoiled {f : Fault} (spoils : f.spoilsOneArtifact = true) : Mishap run t c k f
  | null {p : Path} (file : p ∈ run.files c k) (null : Tree.hasNull p = true) : Mishap run t c k .nullInPath
  | garbled {p : Path} (read : p ∈ run.reads c k) (garbled : t.Garbled p) : Mishap run t c k .notUtf8

end Run

open Run (Effect Mishap)

theorem Run.Mishap.of_refuses (hp : p ∈ run.files c k) (h : f.Refuses p) : Mishap run t c k f := by
  rcases h with ⟨rfl, hnull⟩ | ⟨e, rfl⟩
  · exact .null hp hnull
  · exact .spoiled rfl

theorem Run.Mishap.of_lacks {v : Option String} {id : String} (hv : v ∈ viewsOf k)
    (hid : Layout.templateId run.config c k v = .ok id) (hback : ∀ q, t'.Garbled q → t.Garbled q)
    (h : run.renderer.Lacks t' id f) : Mishap run t c k f := by
  rcases h with ⟨searched, rfl⟩ | ⟨e, rfl⟩ | ⟨rfl, q, hq, hgarbled⟩
  · exact .spoiled rfl
  · exact .spoiled rfl
  · exact .garbled (List.mem_append_left _ (mem_templatePlaces hv hid hq)) (hback q hgarbled)

theorem Run.Mishap.back (hback : ∀ q, t'.Garbled q → t.Garbled q) (h : Mishap run t' c k f) :
    Mishap run t c k f := by
  cases h with
  | homeless target => exact .homeless target
  | unknown view template => exact .unknown view template
  | spoiled spoils => exact .spoiled spoils
  | null file null => exact .null file null
  | garbled read garbled => exact .garbled read (hback _ garbled)

theorem Run.Stays.of_replaced {text : String} {t₁ : Tree} (h : run.Stays c k t t₁) (hp : p ∈ run.files c k)
    (hr : Edit.Replaced t₁ p text t') : run.Stays c k t t' :=
  Frame.of_replaced h hr (fun _ _ _ => ⟨p, hp, rfl⟩) ⟨p, hp, rfl⟩

/-- An artifact fails for want of a template, or goes on with what is rendered from it. -/
theorem wp_template {α : Type} {v : Option String} (hv : v ∈ viewsOf k) {subs : List (String × String)}
    {next : String → Action α} {Q : α → Workspace → Prop} {E : Fault → Workspace → Prop} (w : Workspace)
    (hfails : ∀ f (w' : Workspace), Mishap run w.tree c k f → w'.tree = w.tree → E f w')
    (hnext : ∀ id content w', Layout.templateId run.config c k v = .ok id →
      run.renderer.Rendered id subs w content w' → wp (next content) Q E w') :
    wp (do
      let id ← Action.ofExcept (Layout.templateId run.config c k v)
      let content ← run.renderer.render id subs
      next content) Q E w := by
  rw [wp_bind, wp_ofExcept']
  cases hid : Layout.templateId run.config c k v with
  | error f => exact hfails f w (.unknown hv hid) rfl
  | ok id =>
    simp only
    rw [wp_bind]
    exact wp_mono (Renderer.wp_render ..) (fun content w' => hnext id content w' hid)
      fun f w' h => hfails f w' (.of_lacks hv hid (fun _ hq => hq) h.2) h.1.1

theorem classFile_effect (hviews : k ≠ .views) (w : Workspace) :
    wp (classFile run c k) (fun r w' => Effect run c k w.tree r w'.tree)
      (fun f w' => Mishap run w.tree c k f ∧ w.tree.Extends w'.tree) w := by
  unfold classFile
  rw [wp_bind, wp_ofExcept']
  cases ht : Layout.target run.config run.names run.version c k with
  | error f => exact ⟨.homeless ht, .refl _⟩
  | ok tgt =>
    have hfiles : run.files c k = [tgt.path] := by simp [Run.files, Layout.files, Layout.target_eq ht, hviews]
    have hfile : tgt.path ∈ run.files c k := by simp [hfiles]
    simp only
    refine wp_template (none_mem_viewsOf hviews) w (fun f w' h ht => ⟨h, ht ▸ .refl _⟩) ?_
    rintro id content w₁ - ⟨htree⟩
    rw [wp_bind, ← htree]
    refine wp_mono (Writer.wp_write ..) ?_ fun f w' h => ⟨.of_refuses hfile h.2.1, h.2.2⟩
    rintro written w₂ ⟨-, hwritten⟩
    rw [wp_pure]
    generalize w₂.tree = t₂ at hwritten ⊢
    cases hwritten with
    | left => exact .skipped
    | replaced _ hr => exact .created (by simp [hfiles]) (Run.Stays.of_replaced (.refl ..) hfile hr)

theorem routes_effect (w : Workspace) :
    wp (routes run c) (fun r w' => Effect run c .routes w.tree r w'.tree)
      (fun f w' => Mishap run w.tree c .routes f ∧ w.tree.Extends w'.tree) w := by
  unfold routes
  rw [wp_bind, wp_ofExcept']
  cases ht : Layout.target run.config run.names run.version c .routes with
  | error f => exact ⟨.homeless ht, .refl _⟩
  | ok tgt =>
    have hfiles : run.files c .routes = [tgt.path] := by simp [Run.files, Layout.files, Layout.target_eq ht]
    have hfile : tgt.path ∈ run.files c .routes := by simp [hfiles]
    simp only
    refine wp_template (none_mem_viewsOf (by simp)) w (fun f w' h ht => ⟨h, ht ▸ .refl _⟩) ?_
    rintro id block w₁ - ⟨htree⟩
    rw [wp_bind, ← htree]
    refine wp_mono (Route.wp_merge_effect ..) ?_ ?_
    · rintro r w₂ ⟨-, hmerged⟩
      rw [wp_pure]
      generalize w₂.tree = t₂ at hmerged ⊢
      cases hmerged with
      | left => exact .skipped
      | replaced hr => exact .created (by simp [hfiles]) (Run.Stays.of_replaced (.refl ..) hfile hr)
    · rintro f w₂ ⟨-, hspoils, hextends⟩
      refine ⟨?_, hextends⟩
      rcases hspoils with ⟨flaw, rfl⟩ | hrefuses | ⟨rfl, hgarbled⟩
      · exact .spoiled rfl
      · exact .of_refuses hfile hrefuses
      · exact .garbled (List.mem_append_right _ (by simpa using hfile)) hgarbled

section Views
variable {tgt : Target} {v : View}

theorem mem_files_view (ht : Layout.target run.config run.names run.version c .views = .ok tgt)
    (hv : v ∈ View.all) : tgt.path / (v.name ++ ".blade.php") ∈ run.files c .views := by
  simp only [Run.files, Layout.files, Layout.target_eq ht, ↓reduceIte]
  exact List.mem_map_of_mem hv

theorem view_effect (ht : Layout.target run.config run.names run.version c .views = .ok tgt)
    (hv : v ∈ View.all) (hw : run.Stays c .views t w.tree) :
    wp (view run c tgt.path v)
      (fun written w' => written.path = (tgt.path / (v.name ++ ".blade.php")).toString ∧
        run.Stays c .views t w'.tree ∧ (written.record = none → w'.tree = w.tree))
      (fun f w' => Mishap run t c .views f ∧ run.Stays c .views t w'.tree) w := by
  have hfile := mem_files_view ht hv
  unfold view
  refine wp_template (mem_viewsOf_views hv) w
    (fun f w' h ht => ⟨h.back fun _ hq => Frame.garbled hw hq, ht ▸ hw⟩) ?_
  rintro id content w₁ - ⟨htree⟩
  rw [← htree] at hw ⊢
  refine wp_mono (Writer.wp_write ..) ?_ fun f w' h => ⟨.of_refuses hfile h.2.1, Frame.of_extends hw h.2.2⟩
  rintro written w₂ ⟨-, hwritten⟩
  generalize w₂.tree = t₂ at hwritten ⊢
  cases hwritten with
  | left => exact ⟨rfl, hw, fun _ => rfl⟩
  | replaced _ hr => exact ⟨rfl, hw.of_replaced hfile hr, fun h => by cases h⟩

/-- The views are written one after the other, each with an entry in the list. -/
theorem views_mapM_effect (ht : Layout.target run.config run.names run.version c .views = .ok tgt)
    {vs : List View} (hvs : ∀ v ∈ vs, v ∈ View.all) (hw : run.Stays c .views t w.tree) :
    wp (vs.mapM (view run c tgt.path))
      (fun written w' =>
        written.map (·.path) = vs.map (fun v => (tgt.path / (v.name ++ ".blade.php")).toString) ∧
          run.Stays c .views t w'.tree ∧ ((∀ x ∈ written, x.record = none) → w'.tree = w.tree))
      (fun f w' => Mishap run t c .views f ∧ run.Stays c .views t w'.tree) w := by
  induction vs generalizing w with
  | nil =>
    rw [List.mapM_nil, wp_pure]
    exact ⟨rfl, hw, fun _ => rfl⟩
  | cons v vs ih =>
    rw [List.mapM_cons, wp_bind]
    refine wp_mono (view_effect ht (hvs v (List.mem_cons_self ..)) hw) ?_ fun _ _ h => h
    rintro x w₁ ⟨hpath, hw₁, hsame⟩
    rw [wp_bind]
    refine wp_mono (ih (fun v hv => hvs v (List.mem_cons_of_mem _ hv)) hw₁) ?_ fun _ _ h => h
    rintro xs w₂ ⟨hpaths, hw₂, hsames⟩
    rw [wp_pure]
    refine ⟨by rw [List.map_cons, List.map_cons, hpath, hpaths], hw₂, fun hnone => ?_⟩
    obtain ⟨hx, hxs⟩ := List.forall_mem_cons.1 hnone
    exact (hsames hxs).trans (hsame hx)

theorem views_effect (w : Workspace) :
    wp (views run c) (fun r w' => Effect run c .views w.tree r w'.tree)
      (fun f w' => Mishap run w.tree c .views f ∧ run.Stays c .views w.tree w'.tree) w := by
  unfold views
  rw [wp_bind, wp_ofExcept']
  cases ht : Layout.target run.config run.names run.version c .views with
  | error f => exact ⟨.homeless ht, .refl ..⟩
  | ok tgt =>
    simp only
    rw [wp_bind]
    refine wp_mono (views_mapM_effect ht (fun _ h => h) (.refl ..)) ?_ fun _ _ h => h
    rintro written w' ⟨hpaths, hstays, hsame⟩
    rw [wp_pure, viewsResult, List.partition_eq_filter_filter]
    simp only
    split
    · next hempty =>
      -- no view left a record, so none was written
      have hnone : ∀ x ∈ written, x.record = none := fun x hx => by
        simpa using List.filter_eq_nil_iff.1 (List.isEmpty_iff.1 hempty) x hx
      rw [hsame hnone]
      exact .skipped
    · refine .created (fun p hp => ?_) hstays
      simp only [Run.files, Layout.files, Layout.target_eq ht, ↓reduceIte] at hp
      obtain ⟨v, hv, rfl⟩ := List.mem_map.1 hp
      have hmem : (tgt.path / (v.name ++ ".blade.php")).toString ∈ written.map (·.path) :=
        hpaths ▸ List.mem_map_of_mem hv
      obtain ⟨x, hx, hpath⟩ := List.mem_map.1 hmem
      rw [← hpath]
      refine List.mem_map_of_mem (List.mem_append.2 ?_)
      cases hrecord : x.record with
      | none => exact .inr (List.mem_filter.2 ⟨hx, by simp [hrecord]⟩)
      | some record => exact .inl (List.mem_filter.2 ⟨hx, by simp [hrecord]⟩)

end Views

/-- What an artifact has done when it returns, and what it may fail with. -/
theorem artifact_effect (run : Run) (c : Category) (k : Kind) (w : Workspace) :
    wp (artifact run c k) (fun r w' => Effect run c k w.tree r w'.tree)
      (fun f w' => Mishap run w.tree c k f ∧ run.Stays c k w.tree w'.tree ∧
        (k ≠ .views → w.tree.Extends w'.tree)) w := by
  have hstays : ∀ k f (t' : Tree), Mishap run w.tree c k f ∧ w.tree.Extends t' →
      Mishap run w.tree c k f ∧ run.Stays c k w.tree t' ∧ (k ≠ .views → w.tree.Extends t') :=
    fun _ _ _ h => ⟨h.1, Frame.of_extends (.refl ..) h.2, fun _ => h.2⟩
  cases k with
  | views => exact wp_mono (views_effect w) (fun _ _ h => h) fun _ _ h => ⟨h.1, h.2, fun hne => absurd rfl hne⟩
  | routes => exact wp_mono (routes_effect w) (fun _ _ h => h) fun _ _ h => hstays _ _ _ h
  | _ => exact wp_mono (classFile_effect (by simp) w) (fun _ _ h => h) fun _ _ h => hstays _ _ _ h

end Generator

end Scaffold
