import Scaffold.Proofs.Run.Requested

/-!
# Two entities in either order

In a project that can be reached, the artifacts of two entities come to the same in either order
(`Couple.generate_comm`): the files of their classes and views do not meet, and both merge their routes into the
same files, which have the same lines then.
-/

namespace Scaffold

/-- A run on a tree that returns. What it may remember of the packaged templates is their texts. -/
def Generator.Runs (g : Generator) (entity : String) (o : Options) (t : Tree) (report : Report) (t' : Tree) : Prop :=
  ∃ elapsed w w', w.tree = t ∧ g.renderer.Faithful w.cache ∧ g.generate entity o elapsed w = .ok report w' ∧
    w'.tree = t'

namespace Project
open Generator
variable {base : Path} {backend : Option Backend} {o : Options} {n m : Naming} {columns columns' : List Column}
  {c : Category} {k : Kind} {t₀ : Tree} {w w' : Workspace} {report : Report} {p : Path}

/-- Two accepted entities with different models and different plural names. -/
structure Couple (base : Path) (t₀ : Tree) (o : Options) (first second : String) (n m : Naming) : Prop where
  one : Requested base t₀ o first n
  other : Requested base t₀ o second m
  model : n.one.pascal ≠ m.one.pascal
  plural : n.many.kebab ≠ m.many.kebab

/-- A run without a backend can be made, whatever runs of entities were made before. -/
theorem Requested.exists_run {entity : String} {t : Tree} (h : Requested base t₀ o entity n)
    (hnull : Tree.hasNull base = false)
    (hroutes : ∀ c, (c, .routes) ∈ o.planned → ¬ t₀.Garbled (Layout.routeFile { basePath := base } c))
    (hb : Built t₀ (spots base t₀ o) t) : ∃ report t', (Generator.usual base none).Runs entity o t report t' := by
  have hcache := (Generator.usual base none).renderer.faithful_start t
  obtain ⟨report, w', hgenerate⟩ := h.returns (w := Workspace.start t) hnull hroutes ⟨hb, hcache⟩ 0
  exact ⟨report, w'.tree, 0, Workspace.start t, w', rfl, hcache, hgenerate, rfl⟩

namespace Couple
variable {first second : String} {t₁ t₂ s₁ s₂ : Tree} {r r' q q' : Report}

theorem symm (h : Couple base t₀ o first second n m) : Couple base t₀ o second first m n where
  one := h.other
  other := h.one
  model := h.model.symm
  plural := h.plural.symm

section Runs
variable (h : Couple base t₀ o first second n m)
include h

/-- The first run of the two. -/
theorem ran_one (backend : Option Backend)
    (hrun : (Generator.usual base (backend.map .answers)).Runs first o t₀ r t₁) : ∃ columns w w', w.tree = t₀ ∧ w'.tree = t₁ ∧ Made base backend t₀ o n columns w r w' := by
  obtain ⟨elapsed, w, w', htree, hcache, hgenerate, htree'⟩ := hrun
  obtain ⟨columns, hran⟩ := h.one.ran_first htree hcache hgenerate
  exact ⟨columns, w, w', htree, htree', hran⟩

variable {p' : Path} {c' : Category} {k' : Kind}

/-- The classes and views of one entity are no artifacts of the other. -/
theorem resolve_ne
    (hp : p ∈ Layout.files { basePath := base } n (Layout.version { basePath := base } o.apiVersion) c k)
    (hk : k ≠ .routes)
    (hp' : p' ∈ Layout.files { basePath := base } m (Layout.version { basePath := base } o.apiVersion) c' k')
    (home : Location) :
    p.resolveFrom home ≠ p'.resolveFrom home := fun heq => by
  obtain ⟨rest, hrest, -, hplace⟩ := h.one.mem_files hp
  obtain ⟨rest', hrest', -, hplace'⟩ := h.other.mem_files hp'
  rw [hplace, hplace', List.append_cancel_left_eq] at heq
  obtain ⟨-, -, hmodel | hplural⟩ := Layout.eq_of_mem_sources hrest (heq ▸ hrest') hk
  · exact h.model hmodel
  · exact h.plural hplural

variable (hran : Made base backend t₀ o n columns w r w')
include hran

/-- A run leaves the classes and views of the other entity alone. -/
theorem entry_other (ha : (c, k) ∈ o.planned) (hk : k ≠ .routes)
    (hp : p ∈ Layout.files { basePath := base } m (Layout.version { basePath := base } o.apiVersion) c k) :
    w'.tree.entryAt (p.resolveFrom t₀.home) = w.tree.entryAt (p.resolveFrom t₀.home) :=
  hran.others _ ((h.other.steady backend [] ha).planned p hp) fun _ _ _ _ hp' heq =>
    h.symm.resolve_ne hp hk hp' t₀.home heq.symm

/-- The second run of the two. -/
theorem ran_other (hw : w.tree = t₀)
    (hrun : (Generator.usual base (backend.map .answers)).Runs second o w'.tree r' t₂) :
    ∃ columns' v v', v.tree = w'.tree ∧ v'.tree = t₂ ∧ Made base backend t₀ o m columns' v r' v' := by
  obtain ⟨elapsed, v, v', htree, hcache, hgenerate, htree'⟩ := hrun
  obtain ⟨columns', hran'⟩ := h.other.ran (w := v) ⟨htree ▸ hran.under.built, hcache⟩
    (fun c k ha hk p hp => by
      rw [htree, h.entry_other hran ha hk hp, hw])
    (fun c hc p hp => by
      obtain ⟨tgt, ht⟩ := exists_routes hc (runOf base backend o n columns)
      obtain ⟨-, hsees⟩ := h.one.seen_routes hc ht
      rw [files_routes (Options.mem_kinds hc), ← path_routes (Options.mem_kinds hc) ht] at hp
      rw [htree, List.mem_singleton.1 hp]
      exact (hran.left (hw ▸ .refl ..) (h.one.steady backend columns hc) hc ht).sees (hw ▸ hsees)) hgenerate
  exact ⟨columns', v, v', htree, htree', hran'⟩

variable {v v' : Workspace}
  (hran' : Made base backend t₀ o m columns' v r' v') (hw : w.tree = t₀) (hv : v.tree = w'.tree)
include hran' hw hv

/-- What two runs, one after the other, leave at a route file, and what they know of each other. -/
theorem routes (hc : (c, .routes) ∈ o.planned) {tgt tgt' : Target} (ht : Routes (runOf base backend o n columns) c tgt)
    (ht' : Routes (runOf base backend o m columns') c tgt') :
    tgt'.path = tgt.path ∧ Tree.Short tgt.path ∧ t₀.Sees tgt.path ∧
      (routeCall (runOf base backend o n columns) c tgt).Beside (routeCall (runOf base backend o m columns') c tgt') ∧
      (routeCall (runOf base backend o n columns) c tgt).Left tgt.path t₀ w'.tree ∧
      (routeCall (runOf base backend o m columns') c tgt').Left tgt.path w'.tree v'.tree := by
  have hkinds := Options.mem_kinds hc
  have hpath : tgt'.path = tgt.path := by rw [path_routes hkinds ht, path_routes hkinds ht']
  have hleft := hran.left (hw ▸ .refl ..) (h.one.steady backend columns hc) hc ht
  have hleft' := hran'.left (hv ▸ hran.under.built) (h.other.steady backend columns' hc) hc ht'
  rw [hw] at hleft
  rw [hv, hpath] at hleft'
  obtain ⟨hshort, hsees⟩ := h.one.seen_routes hc ht
  exact ⟨hpath, hshort, hsees, (h.one.usual backend columns).beside_call (h.other.usual backend columns') (Layout.target_eq ht)
    (Layout.target_eq ht') h.model h.plural h.one.version, hleft, hleft'⟩

/-- The second run of the two reports what it would report alone. -/
theorem statuses_other :
    r'.statuses = o.planned.map fun a => (a.1, a.2, comesTo (runOf base backend o m columns') t₀ a) := by
  refine hran'.statuses_eq fun c hc tgt' ht' => ?_
  obtain ⟨tgt, ht⟩ := exists_routes hc (runOf base backend o n columns)
  obtain ⟨hpath, hshort, hsees, hbeside, hleft, -⟩ := h.routes hran hran' hw hv hc ht ht'
  rw [hv, hpath]
  exact hleft.status hbeside hshort hsees

end Runs

/-- Two entities in either order: each artifact has the same status, each file of a class or the views is the
same, and each route file has the same lines, each as often. -/
theorem generate_comm (h : Couple base t₀ o first second n m)
    (h₁ : (Generator.usual base (backend.map .answers)).Runs first o t₀ r t₁)
    (h₂ : (Generator.usual base (backend.map .answers)).Runs second o t₁ r' t₂)
    (h₃ : (Generator.usual base (backend.map .answers)).Runs second o t₀ q' s₁)
    (h₄ : (Generator.usual base (backend.map .answers)).Runs first o s₁ q s₂) :
    r.statuses = q.statuses ∧ r'.statuses = q'.statuses ∧ ∀ e, e = n ∨ e = m → ∀ c k, (c, k) ∈ o.planned →
      ∀ p ∈ Layout.files { basePath := base } e (Layout.version { basePath := base } o.apiVersion) c k,
        if k = .routes then
          Route.SameLines (t₂.entryAt (p.resolveFrom t₀.home)) (s₂.entryAt (p.resolveFrom t₀.home))
        else t₂.entryAt (p.resolveFrom t₀.home) = s₂.entryAt (p.resolveFrom t₀.home) := by
  obtain ⟨columns, w₁, w₁', hw₁, rfl, hran₁⟩ := h.ran_one backend h₁
  obtain ⟨columns', v₁, v₁', hv₁, rfl, hran₂⟩ := h.ran_other hran₁ hw₁ h₂
  obtain ⟨columns'', w₂, w₂', hw₂, rfl, hran₃⟩ := h.symm.ran_one backend h₃
  obtain rfl := hran₂.asked.eq hran₃.asked
  obtain ⟨columns'', v₂, v₂', hv₂, rfl, hran₄⟩ := h.symm.ran_other hran₃ hw₂ h₄
  obtain rfl := hran₁.asked.eq hran₄.asked
  have hstatuses : r.statuses = q.statuses := by
    rw [h.symm.statuses_other hran₃ hran₄ hw₂ hv₂]
    exact hran₁.statuses_eq fun _ _ _ _ => by rw [hw₁]
  have hstatuses' : r'.statuses = q'.statuses := by
    rw [h.statuses_other hran₁ hran₂ hw₁ hv₁]
    exact (hran₃.statuses_eq fun _ _ _ _ => by rw [hw₂]).symm
  refine ⟨hstatuses, hstatuses', fun e he c k ha p hp => ?_⟩
  split
  · next hk =>
    subst hk
    obtain ⟨tgt, ht⟩ := exists_routes ha (runOf base backend o n columns)
    obtain ⟨tgt', ht'⟩ := exists_routes ha (runOf base backend o m columns')
    obtain ⟨hpath, hshort, hsees, hbeside, hleft₁, hleft₂⟩ := h.routes hran₁ hran₂ hw₁ hv₁ ha ht ht'
    obtain ⟨-, -, -, -, hleft₃, hleft₄⟩ := h.symm.routes hran₃ hran₄ hw₂ hv₂ ha ht' ht
    rw [hpath] at hleft₃ hleft₄
    have hp : p ∈ (runOf base backend o e []).files c .routes := hp
    rw [files_routes (Options.mem_kinds ha), ← path_routes (Options.mem_kinds ha) ht] at hp
    rw [List.mem_singleton.1 hp]
    exact Route.Call.left_comm hbeside hshort hsees hleft₁ hleft₂ hleft₃ hleft₄
  · next hk =>
    rcases he with rfl | rfl
    · rw [h.symm.entry_other hran₂ ha hk hp, hv₁, hran₁.entry ha hk hp, hran₄.entry ha hk hp]
    · rw [hran₂.entry ha hk hp, h.entry_other hran₄ ha hk hp, hv₂, hran₃.entry ha hk hp]

theorem exists_names : ∃ n m, Naming.derive? (Text.stripped "Invoice") = some n ∧
    Naming.derive? (Text.stripped "Order") = some m ∧ n.one.pascal ≠ m.one.pascal ∧ n.many.kebab ≠ m.many.kebab := by
  have hnames : ∀ e ∈ [("Invoice", "Invoice", "invoices"), ("Order", "Order", "orders")],
      (Naming.derive? (Text.stripped e.1)).map (fun n => (n.one.pascal, n.many.kebab)) = some e.2 := by
    decide +kernel
  obtain ⟨n, hn, hspelled⟩ := Option.map_eq_some_iff.1 (hnames ("Invoice", "Invoice", "invoices") (by simp))
  obtain ⟨m, hm, hspelled'⟩ := Option.map_eq_some_iff.1 (hnames ("Order", "Order", "orders") (by simp))
  simp only [Prod.mk.injEq] at hspelled hspelled'
  refine ⟨n, m, hn, hm, ?_, ?_⟩
  · rw [hspelled.1, hspelled'.1]
    decide
  · rw [hspelled.2, hspelled'.2]
    decide

/-- Two entities in a fresh project. -/
theorem generate_comm_fresh : ∃ n m r r' q q' t₁ t₂ s₁ s₂,
    Couple Path.here (Stubs.freshTree Stubs.srv) { web := true } "Invoice" "Order" n m ∧
      (Generator.usual Path.here none).Runs "Invoice" { web := true } (Stubs.freshTree Stubs.srv) r t₁ ∧
      (Generator.usual Path.here none).Runs "Order" { web := true } t₁ r' t₂ ∧
      (Generator.usual Path.here none).Runs "Order" { web := true } (Stubs.freshTree Stubs.srv) q' s₁ ∧
      (Generator.usual Path.here none).Runs "Invoice" { web := true } s₁ q s₂ ∧
      r.statuses = q.statuses ∧ r'.statuses = q'.statuses ∧ ∀ e, e = n ∨ e = m → ∀ c k,
        (c, k) ∈ ({ web := true } : Options).planned →
        ∀ p ∈ Layout.files { basePath := Path.here } e (Layout.version { basePath := Path.here } none) c k,
          if k = .routes then
            Route.SameLines (t₂.entryAt (p.resolveFrom Stubs.srv)) (s₂.entryAt (p.resolveFrom Stubs.srv))
          else t₂.entryAt (p.resolveFrom Stubs.srv) = s₂.entryAt (p.resolveFrom Stubs.srv) := by
  obtain ⟨n, m, hn, hm, hmodel, hplural⟩ := exists_names
  have h : Couple Path.here (Stubs.freshTree Stubs.srv) { web := true } "Invoice" "Order" n m := {
    one := ⟨Stubs.fresh_freshTree.project, rfl, by decide +kernel, hn⟩
    other := ⟨Stubs.fresh_freshTree.project, rfl, by decide +kernel, hm⟩
    model := hmodel
    plural := hplural }
  have hroutes := fun c (_ : (c, .routes) ∈ ({ web := true } : Options).planned) =>
    Stubs.fresh_freshTree.not_garbled_routes c
  obtain ⟨r, t₁, h₁⟩ := h.one.exists_run rfl hroutes (.refl ..)
  obtain ⟨columns, w₁, w₁', hw₁, rfl, hran₁⟩ := h.ran_one none h₁
  obtain ⟨r', t₂, h₂⟩ := h.other.exists_run rfl hroutes hran₁.under.built
  obtain ⟨q', s₁, h₃⟩ := h.other.exists_run rfl hroutes (.refl ..)
  obtain ⟨columns', w₂, w₂', hw₂, rfl, hran₂⟩ := h.symm.ran_one none h₃
  obtain ⟨q, s₂, h₄⟩ := h.one.exists_run rfl hroutes hran₂.under.built
  exact ⟨n, m, r, r', q, q', _, t₂, _, s₂, h, h₁, h₂, h₃, h₄, @generate_comm _ none _ _ _ _ _ _ _ _ _ _ _ _ _ _ h h₁ h₂ h₃ h₄⟩

end Couple

section Detour

/-- A workspace in which all packaged templates have been read. -/
def warm (t : Tree) : Workspace :=
  { Workspace.start t with cache := Stubs.packaged.map fun a => (Stubs.root / a.1, a.2) }

theorem faithful_warm (base : Path) (storage : Option Storage) (t : Tree) :
    (Generator.usual base storage).renderer.Faithful (warm t).cache := by
  intro a ha s hs
  have hnodup : ((Stubs.packaged.map fun a => (Stubs.root / a.1, a.2)).map Prod.fst).Nodup := by decide +kernel
  have hmem : (Stubs.root / a.1, a.2) ∈ Stubs.packaged.map fun a => (Stubs.root / a.1, a.2) :=
    List.mem_map_of_mem ha
  exact Option.some.inj (hs.symm.trans (Stubs.lookup_of_mem hnodup hmem))

/-- A working directory with the controller of an entity. -/
def standing : Tree :=
  (Stubs.freshTree Stubs.srv).beside
    [(["srv", "app"], .directory), (["srv", "app", "Http"], .directory),
     (["srv", "app", "Http", "Controllers"], .directory), (["srv", "app", "Http", "Controllers", "Web"], .directory),
     (["srv", "app", "Http", "Controllers", "Web", "Invoice"], .directory),
     (["srv", "app", "Http", "Controllers", "Web", "Invoice", "InvoiceController.php"],
       .file 0o600 "mine\n".toUTF8)]

/-- A base path through a directory that is missing. -/
def detour : Path :=
  ⟨.relative, ["nodir", ".."]⟩

theorem runs_of_tested {base : Path} {entity : String} {o : Options} {t : Tree} (test : Report → Tree → Bool)
    (h : tested (Generator.usual base none) entity o (warm t) (fun report w' => test report w'.tree) = true) :
    ∃ report t', (Generator.usual base none).Runs entity o t report t' ∧ test report t' = true := by
  obtain ⟨report, w', hgenerate, htest⟩ := tested_eq_true h
  exact ⟨report, w'.tree, ⟨0, warm t, w', rfl, faithful_warm base none t, hgenerate, rfl⟩, htest⟩

/-- The first of two runs replaces the controller, and the second one finds that it stands. -/
theorem generate_detour : ∃ n m r r' q q' t₁ t₂ s₁ s₂,
    (∀ a ∈ Stubs.packaged, standing.readText (Stubs.root / a.1) = .ok a.2) ∧
      (∀ a ∈ Stubs.packaged, standing.entryAt
        ((({ basePath := detour } : Config).overridePath / a.1).resolveFrom standing.home) = none) ∧
      Review.accepts standing (some "Invoice") classesOnly { basePath := detour } = true ∧
      Review.accepts standing (some "Order") classesOnly { basePath := detour } = true ∧
      Naming.derive? (Text.stripped "Invoice") = some n ∧ Naming.derive? (Text.stripped "Order") = some m ∧
      n.one.pascal ≠ m.one.pascal ∧ n.many.kebab ≠ m.many.kebab ∧
      (Generator.usual detour none).Runs "Invoice" classesOnly standing r t₁ ∧
      (Generator.usual detour none).Runs "Order" classesOnly t₁ r' t₂ ∧
      (Generator.usual detour none).Runs "Order" classesOnly standing q' s₁ ∧
      (Generator.usual detour none).Runs "Invoice" classesOnly s₁ q s₂ ∧ r.statuses ≠ q.statuses := by
  obtain ⟨n, m, hn, hm, hmodel, hplural⟩ := Couple.exists_names
  have hown : ∀ id ∈ Stubs.packaged.map Prod.fst, standing.entryAt
      ((({ basePath := detour } : Config).overridePath / id).resolveFrom standing.home) = none := by
    decide +kernel
  have hfirst : tested (Generator.usual detour none) "Invoice" classesOnly (warm standing) (fun report w' =>
      report.statuses.map (·.2.2) == [.created, .created, .created] &&
        tested (Generator.usual detour none) "Order" classesOnly (warm w'.tree) fun _ _ => true) = true := by
    decide +kernel
  have hsecond : tested (Generator.usual detour none) "Order" classesOnly (warm standing) (fun _ w' =>
      tested (Generator.usual detour none) "Invoice" classesOnly (warm w'.tree) fun report _ =>
        report.statuses.map (·.2.2) == [.skipped, .created, .created]) = true := by
    decide +kernel
  obtain ⟨r, t₁, h₁, htest⟩ := runs_of_tested (fun report t' =>
    report.statuses.map (·.2.2) == [.created, .created, .created] &&
      tested (Generator.usual detour none) "Order" classesOnly (warm t') fun _ _ => true) hfirst
  obtain ⟨hcreated, hnext⟩ := Bool.and_eq_true_iff.1 htest
  obtain ⟨r', t₂, h₂, -⟩ := runs_of_tested (fun _ _ => true) hnext
  obtain ⟨q', s₁, h₃, hnext⟩ := runs_of_tested (fun _ t' =>
    tested (Generator.usual detour none) "Invoice" classesOnly (warm t') fun report _ =>
      report.statuses.map (·.2.2) == [.skipped, .created, .created]) hsecond
  obtain ⟨q, s₂, h₄, hskipped⟩ := runs_of_tested (fun report _ =>
    report.statuses.map (·.2.2) == [.skipped, .created, .created]) hnext
  refine ⟨n, m, r, r', q, q', t₁, t₂, s₁, s₂,
    fun a ha => Tree.readText_beside (Stubs.fresh_freshTree.packaged a ha),
    fun a ha => hown a.1 (List.mem_map_of_mem ha), by decide +kernel, by decide +kernel, hn, hm, hmodel, hplural,
    h₁, h₂, h₃, h₄, fun heq => ?_⟩
  rw [heq, eq_of_beq hskipped] at hcreated
  cases hcreated

end Detour

end Project

end Scaffold
