import Scaffold.Proofs.Name.Plural
import Scaffold.Proofs.Run.Places
import Scaffold.Proofs.Run.Verdict

/-!
# Projects in the usual layout

In a project that uses the packaged templates, the files of all entities are sources below the base path, so they
do not meet (`Project.orderly`), and a run of each entity comes to what its attempts come to alone.
-/

namespace Scaffold
open Layout (Presentable sources)

/-- The usual configuration of a project below `base`, with a storage. -/
def Generator.usual (base : Path) (storage : Option Storage) : Generator :=
  { Generator.ofConfig { basePath := base } with storage }

/-- A project below `base` that can be reached, with the packaged templates and none of its own. -/
structure Project (base : Path) (t : Tree) : Prop where
  grounded : t.Grounded
  short : Tree.Short base
  enters : ∃ l rest, t.Enters base l rest
  packaged : ∀ a ∈ Stubs.packaged, t.readText (Stubs.root / a.1) = .ok a.2
  own : ∀ a ∈ Stubs.packaged, ∀ mode bytes, t.entryAt
    ((({ basePath := base } : Config).overridePath / a.1).resolveFrom t.home) ≠ some (.file mode bytes)

/-- Where the artifacts of entities go. -/
def Sources (b : Location) (version : String) (N : Naming → Prop) (l : Location) : Prop :=
  ∃ n, N n ∧ ∃ c k, ∃ rest ∈ sources n version c k, l = b ++ rest

variable {base p : Path} {storage : Option Storage} {t₀ : Tree} {version : String} {N : Naming → Prop} {n n' : Naming}
  {c c' : Category} {k k' : Kind} {l b : Location} {w : Workspace} {rest : List String} {o : Options}

theorem Layout.presentable {config : Config} {entity : String} (ha : Accepted config o)
    (hn : Naming.derive? entity = some n) : Presentable n (Layout.version config o.apiVersion) where
  spelled := Naming.spelled hn
  kebab_ne hempty := Naming.kebab_notMem hn (by rw [hempty]; exact List.mem_cons_self ..)
  loose := isLoose_version ha
  version_ne := version_ne ha

section Files
variable (hN : ∀ n, N n → Presentable n version)
include hN

theorem Sources.source (h : Sources b version N l) : ∃ rest, Path.Source rest ∧ l = b ++ rest := by
  obtain ⟨n, hn, c, k, rest, hrest, rfl⟩ := h
  exact ⟨rest, Layout.source_of_mem (hN n hn) hrest, rfl⟩

theorem apart_sources : Apart (Sources b version N) :=
  apart_of_sources fun _ hs => Sources.source hN hs

end Files

namespace Layout
variable (h : Presentable n version)

theorem nodup_sources (n : Naming) (version : String) (c : Category) (k : Kind) :
    (sources n version c k).Nodup := by
  unfold sources
  split
  · refine List.Nodup.map (fun v v' heq => ?_) (by decide)
    revert heq
    cases v <;> cases v' <;> simp [View.name]
  · split
    · exact List.nodup_nil
    · split <;> exact List.nodup_singleton _

include h

theorem mem_files : p ∈ files { basePath := base } n version c k ↔
    ∃ rest ∈ sources n version c k, (⟨base.anchor, base.parts ++ rest⟩ : Path) = p := by
  rw [files_eq rfl rfl h, List.mem_map]

theorem resolve_source (hrest : rest ∈ sources n version c k) (home : Location) :
    Path.resolveFrom home ⟨base.anchor, base.parts ++ rest⟩ = base.resolveFrom home ++ rest := by
  have hplain := (source_of_mem h hrest).names
  show Path.follow _ (base.parts ++ rest) = Path.follow _ base.parts ++ rest
  rw [Path.follow_append, Path.follow_of_not_climbs hplain]
  rfl

theorem map_resolve_files (home : Location) : (files { basePath := base } n version c k).map (·.resolveFrom home) =
    (sources n version c k).map (base.resolveFrom home ++ ·) := by
  rw [files_eq rfl rfl h, List.map_map]
  exact List.map_congr_left fun rest hrest => resolve_source h hrest home

end Layout

section Templates

/-- The names of the packaged templates are short, and no PHP file has one. -/
theorem plain_packaged : ∀ a ∈ Stubs.packaged, (Path.ofString a.1).isAbsolute = false ∧
    (∀ part ∈ (Path.ofString a.1).parts, part.utf8ByteSize ≤ Tree.nameLimit) ∧ ".." ∉ (Path.ofString a.1).parts ∧
      ∃ dirs name, (Path.ofString a.1).parts = dirs ++ [name] ∧ name.toList.getLast? ≠ some 'p' := by
  have hids : ∀ id ∈ Stubs.packaged.map Prod.fst, (Path.ofString id).isAbsolute = false ∧
      (∀ part ∈ (Path.ofString id).parts, part.utf8ByteSize ≤ Tree.nameLimit) ∧ ".." ∉ (Path.ofString id).parts ∧
        (Path.ofString id).parts ≠ [] ∧
        ∀ name ∈ (Path.ofString id).parts.getLast?, name.toList.getLast? ≠ some 'p' := by
    decide +kernel
  intro a ha
  obtain ⟨hrelative, hshort, hup, hne, hlast⟩ := hids _ (List.mem_map_of_mem ha)
  refine ⟨hrelative, hshort, hup, _, _, (List.dropLast_append_getLast hne).symm, hlast _ ?_⟩
  exact List.getLast?_eq_getLast_of_ne_nil hne

theorem Sources.notTemplate (hN : ∀ n, N n → Presentable n version) {a : String × String} (ha : a ∈ Stubs.packaged)
    (p : Path) (home : Location) : ¬ Sources b version N ((p / a.1).resolveFrom home) := by
  intro h
  obtain ⟨rest, hrest, heq⟩ := h.source hN
  obtain ⟨hrelative, -, hup, dirs, name, hparts, hlast⟩ := plain_packaged a ha
  have hname : name ≠ ".." := fun heq => hup (by rw [hparts, heq]; simp)
  obtain ⟨dirs', name', rfl, -, -, -, hphp⟩ := hrest.exists_name
  have hresolve : ∃ above, (p / a.1).resolveFrom home = above ++ [name] := by
    refine ⟨Path.follow (if (p / a.1).isAbsolute then [] else home) (p.parts ++ dirs), ?_⟩
    show Path.follow _ (p.append (Path.ofString a.1)).parts = _
    have hclimbs : ".." ∉ [name] := by simpa using hname.symm
    rw [Path.parts_append hrelative, hparts, ← List.append_assoc, Path.follow_append,
      Path.follow_of_not_climbs hclimbs]
  obtain ⟨above, habove⟩ := hresolve
  rw [habove, ← List.append_assoc] at heq
  obtain ⟨-, hnames⟩ := List.append_inj' heq rfl
  rw [List.singleton_inj.1 hnames] at hlast
  exact hlast hphp

theorem short_template {a : String × String} (ha : a ∈ Stubs.packaged) (hp : Tree.Short p) : Tree.Short (p / a.1) := by
  obtain ⟨hrelative, hshort, -⟩ := plain_packaged a ha
  intro part hpart
  rw [show (p / a.1).parts = p.parts ++ (Path.ofString a.1).parts from Path.parts_append hrelative] at hpart
  exact (List.mem_append.1 hpart).elim (hp part) (hshort part)

theorem Project.stock (h : Project base t₀) (hN : ∀ n, N n → Presentable n version) (storage : Option Storage) :
    (Generator.usual base storage).renderer.Stock t₀ (Sources b version N) where
  short a ha p hp := by
    have hoverride : Tree.Short ({ basePath := base } : Config).overridePath := by
      have hown : ∀ part ∈ ["resources", "stubs", "smart-crud"], part.utf8ByteSize ≤ Tree.nameLimit := by decide
      have hparts : ({ basePath := base } : Config).overridePath =
          ⟨base.anchor, base.parts ++ ["resources", "stubs", "smart-crud"]⟩ :=
        base.join_intercalate ["resources", "stubs", "smart-crud"] (by simp) (by decide)
      rw [hparts]
      exact fun part hpart => (List.mem_append.1 hpart).elim (h.short part) (hown part)
    obtain ⟨root, hroot, rfl⟩ := List.mem_map.1 hp
    rcases List.mem_append.1 hroot with hroot | hroot
    · obtain rfl := List.mem_singleton.1 hroot
      exact short_template ha hoverride
    · obtain rfl := List.mem_singleton.1 hroot
      have hroot : Tree.Short Stubs.root := by decide
      exact short_template ha hroot
  read := h.packaged
  none a ha root hroot mode bytes := by
    obtain rfl := Option.some.inj hroot
    exact h.own a ha mode bytes
  free a ha p hp := by
    obtain ⟨root, -, rfl⟩ := List.mem_map.1 hp
    exact Sources.notTemplate hN ha root t₀.home

end Templates

namespace Layout

theorem mem_sources_routes (h : rest ∈ sources n version c .routes) :
    c ≠ .common ∧ rest = ["routes", if c = .api then "api.php" else "web.php"] := by
  rcases mem_sources.1 h with ⟨-, hk, -⟩ | ⟨place, hplace, ⟨-, hrest⟩ | ⟨hk, -⟩⟩
  · cases hk
  · refine ⟨?_, hrest⟩
    rintro rfl
    cases hplace
  · exact absurd rfl hk

theorem artifact_of_mem_sources (h : rest ∈ sources n version c k) (h' : rest ∈ sources n version c' k') :
    (c, k) = (c', k') := by
  by_cases hk : k = .routes
  · by_cases hk' : k' = .routes
    · subst hk hk'
      obtain ⟨hc, rfl⟩ := mem_sources_routes h
      obtain ⟨hc', hrest⟩ := mem_sources_routes h'
      rw [Prod.mk.injEq]
      refine ⟨?_, rfl⟩
      revert hc hc' hrest
      cases c <;> cases c' <;> decide
    · obtain ⟨rfl, rfl, -⟩ := eq_of_mem_sources h' h hk'
      rfl
  · obtain ⟨rfl, rfl, -⟩ := eq_of_mem_sources h h' hk
    rfl

end Layout

namespace Project
open Generator

theorem files_routes (hc : .routes ∈ c.kinds) (storage : Option Storage) (o : Options) (n : Naming)
    (columns : List Column) :
    ((usual base storage).runOf o n columns).files c .routes = [Layout.routeFile { basePath := base } c] := by
  cases c with
  | common => exact absurd hc (by decide)
  | api => rfl
  | web => rfl

variable {columns : List Column} (h : Project base t₀) (hN : ∀ n, N n → Presentable n version)
  (hversion : Layout.version { basePath := base } o.apiVersion = version) (hn : N n)
include h hN hversion hn

omit h in
theorem mem_files (hp : p ∈ ((usual base storage).runOf o n columns).files c k) :
    ∃ rest ∈ sources n version c k, p = ⟨base.anchor, base.parts ++ rest⟩ ∧
      ∀ home, p.resolveFrom home = base.resolveFrom home ++ rest := by
  subst hversion
  obtain ⟨rest, hrest, rfl⟩ := (Layout.mem_files (hN n hn)).1 hp
  exact ⟨rest, hrest, rfl, Layout.resolve_source (hN n hn) hrest⟩

theorem steady (hk : k ∈ c.kinds) : ((usual base storage).runOf o n columns).Steady t₀
    (Sources (base.resolveFrom t₀.home) version N) c k where
  stubs := rfl
  stock := h.stock hN storage
  apart := apart_sources hN
  kinds := hk
  aims p hp := by
    obtain ⟨rest, hrest, rfl, -⟩ := Project.mem_files hN hversion hn hp
    obtain ⟨l, rest', henters⟩ := h.enters
    exact h.grounded.aims_of_source henters (Layout.source_of_mem (hN n hn) hrest)
  planned p hp := by
    obtain ⟨rest, hrest, -, hplace⟩ := Project.mem_files hN hversion hn hp
    exact ⟨n, hn, c, k, rest, hrest, hplace _⟩
  nodup := by
    subst hversion
    have hfiles : (((usual base storage).runOf o n columns).files c k).map (·.resolveFrom t₀.home) = _ :=
      Layout.map_resolve_files (hN n hn) t₀.home
    rw [hfiles]
    exact (Layout.nodup_sources ..).map fun _ _ => List.append_cancel_left

theorem short_routes (hp : p ∈ ((usual base storage).runOf o n columns).files c .routes) : Tree.Short p := by
  obtain ⟨rest, hrest, rfl, -⟩ := Project.mem_files hN hversion hn hp
  have hnames : ∀ part ∈ rest, part.utf8ByteSize ≤ Tree.nameLimit := by
    rw [(Layout.mem_sources_routes hrest).2]
    split <;> decide
  exact fun part hpart => (List.mem_append.1 hpart).elim (h.short part) (hnames part)

/-- The artifacts of a run do not meet. -/
theorem orderly (hu : Under (usual base storage).renderer t₀ (Sources (base.resolveFrom t₀.home) version N) w)
    (hown : ∀ c k, (c, k) ∈ o.planned → k ≠ .routes → ∀ p ∈ Layout.files { basePath := base } n version c k,
      w.tree.entryAt (p.resolveFrom t₀.home) = t₀.entryAt (p.resolveFrom t₀.home))
    (hroutes : ∀ c, (c, .routes) ∈ o.planned → ∀ p ∈ Layout.files { basePath := base } n version c .routes,
      w.tree.Sees p) :
    ((usual base storage).runOf o n columns).Orderly t₀ (Sources (base.resolveFrom t₀.home) version N) w
      o.planned where
  under := hu
  steady a ha := h.steady hN hversion hn (Options.mem_kinds ha)
  own a ha hk p hp := by
    subst hversion
    exact hown a.1 a.2 ha hk p hp
  routes a ha hk p hp := by
    obtain ⟨c, k⟩ := a
    obtain rfl : k = .routes := hk
    refine ⟨h.short_routes hN hversion hn hp, ?_⟩
    subst hversion
    exact hroutes c ha _ hp
  disjoint := by
    refine (List.Nodup.of_map _ (nodup_labels o)).imp fun hne l ⟨p, hp, hl⟩ ⟨q, hq, hl'⟩ => hne ?_
    obtain ⟨rest, hrest, -, hplace⟩ := mem_files hN hversion hn hp
    obtain ⟨rest', hrest', -, hplace'⟩ := mem_files hN hversion hn hq
    rw [hplace] at hl
    rw [hplace', ← hl, List.append_cancel_left_eq] at hl'
    exact Layout.artifact_of_mem_sources hrest (hl' ▸ hrest')

end Project

section Columns
variable {backend : Option Backend} {columns columns' : List Column} {w' w₁ w₁' : Workspace}

/-- What a backend has answered about a table. -/
def Asked (backend : Option Backend) (base : Path) (n : Naming) (columns : List Column) : Prop :=
  ∃ w w', Introspect.columns (backend.map .answers) { basePath := base } n w = .ok columns w'

theorem Asked.eq (h : Asked backend base n columns) (h' : Asked backend base n columns') : columns = columns' := by
  obtain ⟨w, w₁, h⟩ := h
  obtain ⟨w', w₁', h'⟩ := h'
  obtain ⟨-, hagain⟩ := (Introspect.columns_blind ..).again h
  obtain ⟨w₂, hsame, -⟩ := hagain w'
  rw [h'] at hsame
  cases hsame
  rfl

end Columns

namespace Project
open Generator
variable {backend : Option Backend} {entity : String} {report : Report} {w' : Workspace}

/-- The run of an entity, once its columns are known. -/
abbrev runOf (base : Path) (backend : Option Backend) (o : Options) (n : Naming) (columns : List Column) : Run :=
  (usual base (backend.map .answers)).runOf o n columns

/-- What a run of an accepted entity has come to, artifact by artifact. -/
structure Ran (base : Path) (backend : Option Backend) (t₀ : Tree) (S : Location → Prop) (n : Naming) (o : Options)
    (version : String) (columns : List Column) (w : Workspace) (report : Report) (w' : Workspace) : Prop where
  asked : Asked backend base n columns
  planned : report.results.map (fun r => (r.category, r.kind)) = o.planned
  under : Under (usual base (backend.map .answers)).renderer t₀ S w'
  done : ∀ r ∈ report.results, (runOf base backend o n columns).Done t₀ r.category r.kind w.tree r.status w'.tree
  grows : w.tree.Grows w'.tree
  others : ∀ l, S l → (∀ c k, (c, k) ∈ o.planned → ∀ p ∈ Layout.files { basePath := base } n version c k,
    p.resolveFrom t₀.home ≠ l) → w'.tree.entryAt l = w.tree.entryAt l

theorem ran (h : Project base t₀) (hN : ∀ n, N n → Presentable n version)
    (hversion : Layout.version { basePath := base } o.apiVersion = version) (hn : N n)
    (hname : Naming.derive? (Text.stripped entity) = some n)
    (haccepts : Review.accepts w.tree (some entity) o { basePath := base } = true)
    (hu : Under (usual base (backend.map .answers)).renderer t₀ (Sources (base.resolveFrom t₀.home) version N) w)
    (hown : ∀ c k, (c, k) ∈ o.planned → k ≠ .routes → ∀ p ∈ Layout.files { basePath := base } n version c k,
      w.tree.entryAt (p.resolveFrom t₀.home) = t₀.entryAt (p.resolveFrom t₀.home))
    (hroutes : ∀ c, (c, .routes) ∈ o.planned → ∀ p ∈ Layout.files { basePath := base } n version c .routes,
      w.tree.Sees p)
    (hret : Returned (usual base (backend.map .answers)) entity o w report w') :
    ∃ columns, Ran base backend t₀ (Sources (base.resolveFrom t₀.home) version N) n o version columns w report w' := by
  obtain ⟨review, hreview, herrors⟩ := Review.accepts_eq_true haccepts
  cases hret with
  | refused reviewed errors =>
    have hsame : Except.ok review = Except.ok _ := hreview.symm.trans reviewed
    cases hsame
    rw [herrors] at errors
    cases errors
  | @ran review' names columns report log w₁ w₂ w' reviewed accepted named asked planned outcomes same =>
    obtain rfl : n = names := Option.some.inj (hname.symm.trans named)
    have hasked : Introspect.columns (backend.map .answers) { basePath := base } n { w with log := log } =
        .ok columns w₁ := by
      cases backend <;> exact asked
    obtain ⟨⟨htree, hcache⟩, -⟩ := (Introspect.columns_blind ..).again hasked
    have htree : w₁.tree = w.tree := htree
    have hcache : w₁.cache = w.cache := hcache
    have horderly : (runOf base backend o n columns).Orderly t₀ (Sources (base.resolveFrom t₀.home) version N) w₁
        o.planned :=
      h.orderly hN hversion hn ⟨htree ▸ hu.built, hcache ▸ hu.cache⟩ (htree ▸ hown) (htree ▸ hroutes)
    rw [← planned] at horderly
    obtain ⟨hunder, hdone, hothers⟩ := outcomes.done horderly
    refine ⟨columns, ⟨⟨_, _, hasked⟩, planned, ⟨same.1 ▸ hunder.built, same.2 ▸ hunder.cache⟩, ?_, ?_, ?_⟩⟩
    · rw [same.1, ← htree]
      exact hdone
    · rw [same.1, ← htree]
      exact outcomes.frame_free.grows
    · intro l hl hfree
      rw [same.1, ← htree]
      subst hversion
      refine hothers l hl fun r hr ⟨p, hp, heq⟩ => hfree r.category r.kind ?_ p hp heq
      rw [← planned]
      exact List.mem_map_of_mem hr

end Project

end Scaffold
