import Scaffold.Proofs.Run.Fresh
import Scaffold.Proofs.Run.Heads

/-!
# Imports that meet the model

A class file imports classes of the framework beside those that are named after the model. The review knows the words
that no class can be named with, but not these names, so there are models with which a file has two classes of one
short name; they are few, and `confused` lists them for each file (`Requested.imports_apart`).
-/

namespace Scaffold

namespace Generator
open Import (generated)
open Name (Mould)

/-- How the short names in a class file are made from the model: those of its imports, and that of the class. -/
def moulds (c : Category) (k : Kind) : List Mould :=
  (head c k).imports.map Import.mould ++ [(generated c k).mould]

/-- The models, in lower case, that give two classes of a file one short name. -/
def confused : Category → Kind → List String
  | .common, .service => ["lengthawarepaginator", "db"]
  | .common, .repository => ["lengthawarepaginator", "builder"]
  | .common, .repositoryInterface => ["lengthawarepaginator"]
  | .api, .resource => ["json"]
  | .api, .collection => ["resource"]
  | .web, .controller => ["controller", "redirectresponse", "request", "view"]
  | _, _ => []

variable {base : Path} {run : Run} {o : Options} {c : Category} {k : Kind} {t : Target} {entity : String}

theorem moulds_apart : ∀ c ∈ Category.all, ∀ k ∈ c.kinds, k.isClass = true →
    ((moulds c k).map Mould.lower).Pairwise Mould.Apart := by
  decide +kernel

theorem meetings_moulds : ∀ c ∈ Category.all, ∀ k ∈ c.kinds, k.isClass = true →
    Mould.meetings ((moulds c k).map Mould.lower) = (confused c k).map String.toList := by
  decide +kernel

theorem apart_file (h : run.Usual base o entity) (hversion : '\n' ∉ run.version.toList)
    (ht : Layout.target? run.config run.names run.version c k = some t) (hk : k ∈ c.kinds) (hclass : k.isClass = true) :
    Php.declared (Template.fill (templateText c k none) (fileSubstitutions run c k t)) = [t.className.toList] ∧
      (Php.Apart (Template.fill (templateText c k none) (fileSubstitutions run c k t)) ↔
        run.names.one.lower ∉ confused c k) := by
  obtain ⟨himports, hdeclared⟩ := read_file h hversion ht hk hclass
  refine ⟨hdeclared, ?_⟩
  have hdeclares : t.className.toList = (generated c k).mould.made run.names.one.pascal.toList := by
    obtain ⟨place, hplace⟩ := Layout.exists_place hk hclass
    have htarget := Layout.target_eq (Layout.target_class hplace hclass run.config run.names run.version)
    rw [ht, Option.some.injEq] at htarget
    rw [htarget, Import.mould, hplace, Mould.made, ClassPlace.className, String.toList_append, String.toList_append]
  have hnames : (Php.imports (Template.fill (templateText c k none) (fileSubstitutions run c k t)) ++
      Php.declared (Template.fill (templateText c k none) (fileSubstitutions run c k t))).map (·.map Char.toLower) =
        ((moulds c k).map Mould.lower).map (Mould.made (run.names.one.pascal.toList.map Char.toLower)) := by
    rw [himports, hdeclared, hdeclares, moulds, List.map_append, List.map_append, List.map_append, List.map_map,
      List.map_map, List.map_map]
    simp only [List.map_cons, List.map_nil, ← Mould.lower_made]
    congr 1
    exact List.map_congr_left fun i _ => Mould.lower_made i.mould _
  have hne : run.names.one.pascal.toList.map Char.toLower ≠ [] := by simpa using h.spelled.pascal_ne
  have hlower : run.names.one.lower.toList = run.names.one.pascal.toList.map Char.toLower := by
    rw [Naming.one_eq h.named]
    exact String.toList_ofList
  rw [Php.Apart, hnames, Mould.nodup_made hne (moulds_apart c c.mem_all k hk hclass),
    meetings_moulds c c.mem_all k hk hclass, ← hlower, List.mem_map_of_injective fun _ _ => String.toList_inj.1]

end Generator

namespace Project
open Generator
variable {base : Path} {backend : Option Backend} {t₀ : Tree} {o : Options} {entity : String} {n : Naming}
  {columns : List Column} {c : Category} {k : Kind} {w w' : Workspace} {report : Report} {elapsed : Float}

/-- The file of a class declares it, and has two classes of one short name only for the models that it is confused
by. -/
structure ClassFile (t₀ t : Tree) (base : Path) (o : Options) (n : Naming) (c : Category) (k : Kind) (tgt : Target)
    (text : String) : Prop extends Holds t₀ t base o n c k tgt text where
  declared : Php.declared text = [tgt.className.toList]
  apart : Php.Apart text ↔ n.one.lower ∉ confused c k

theorem Requested.classFile_created (h : Requested base t₀ o entity n)
    (hran : Made base backend t₀ o n columns w report w') (hclass : k.isClass = true)
    (hcreated : (c, k, .created) ∈ report.statuses) : ∃ tgt text, ClassFile t₀ w'.tree base o n c k tgt text := by
  obtain ⟨hk, tgt, hholds⟩ := hran.created hclass hcreated
  obtain ⟨hdeclared, hapart⟩ := apart_file (h.usual backend columns)
    (Layout.newline_notMem_version h.accepted h.version) (Layout.target_eq hholds.target) hk hclass
  exact ⟨tgt, _, hholds, hdeclared, hapart⟩

/-- In each class file that a run creates, the imports and the class have different short names, but for the few models
that the file is confused by. -/
theorem Requested.imports_apart (h : Requested base t₀ o entity n) (backend : Option Backend) (hw : w.tree = t₀)
    (hcache : (Generator.usual base (backend.map .answers)).renderer.Faithful w.cache)
    (hgenerate : (Generator.usual base (backend.map .answers)).generate entity o elapsed w = .ok report w')
    (hclass : k.isClass = true) (hcreated : (c, k, .created) ∈ report.statuses) :
    ∃ tgt text, ClassFile t₀ w'.tree base o n c k tgt text := by
  obtain ⟨columns, hran⟩ := h.ran_first hw hcache hgenerate
  exact h.classFile_created hran hclass hcreated

open Stubs (freshTree srv) in
/-- The service of `Builder` has no two classes of one name, while its repository has. -/
theorem imports_apart_builder : ∃ report w',
    Requested Path.here (freshTree srv) {} "Builder" ⟨.ofPascal "Builder", .ofPascal "Builders"⟩ ∧
    (Generator.usual Path.here none).renderer.Faithful (Workspace.start (freshTree srv)).cache ∧
    (Generator.usual Path.here none).generate "Builder" {} 0 (Workspace.start (freshTree srv)) = .ok report w' ∧
    (.common, .service, .created) ∈ report.statuses ∧ (.common, .repository, .created) ∈ report.statuses ∧
    (∃ tgt text, ClassFile (freshTree srv) w'.tree Path.here {} ⟨.ofPascal "Builder", .ofPascal "Builders"⟩
      .common .service tgt text ∧ Php.Apart text) ∧
    ∃ tgt text, ClassFile (freshTree srv) w'.tree Path.here {} ⟨.ofPascal "Builder", .ofPascal "Builders"⟩
      .common .repository tgt text ∧ ¬ Php.Apart text := by
  have h : First (freshTree srv) {} "Builder" ⟨.ofPascal "Builder", .ofPascal "Builders"⟩ :=
    ⟨Stubs.fresh_freshTree, rfl, by decide +kernel, by decide +kernel, by decide⟩
  have hcache := (Generator.usual Path.here none).renderer.faithful_start (freshTree srv)
  obtain ⟨report, w', hgenerate, -, hcreated⟩ :=
    h.exists_created (w := Workspace.start _) (by decide +kernel) rfl hcache 0
  have hservice := hcreated (.common, .service) (by decide)
  have hrepository := hcreated (.common, .repository) (by decide)
  obtain ⟨tgt, text, hfile⟩ := h.requested.imports_apart none rfl hcache hgenerate rfl hservice
  obtain ⟨tgt', text', hfile'⟩ := h.requested.imports_apart none rfl hcache hgenerate rfl hrepository
  refine ⟨report, w', h.requested, hcache, hgenerate, hservice, hrepository, ⟨tgt, text, hfile, ?_⟩, tgt', text',
    hfile', ?_⟩
  · exact hfile.apart.2 (by decide +kernel)
  · rw [hfile'.apart]
    decide +kernel

open Stubs (freshTree srv) in
/-- The web controller of `Request` imports the model and the request of the framework, both as `Request`. -/
theorem imports_meet_request :
    let o : Options := { api := false, web := true, skipCommon := true, skipRoutes := true, skipViews := true }
    (Review.ofEntity (some "Request")).hasErrors = false ∧ ∃ report w' mode text,
      (Generator.ofConfig {}).generate "Request" o 0 (Workspace.start (freshTree srv)) = .ok report w' ∧
      w'.tree.entryAt ["srv", "app", "Http", "Controllers", "Web", "Request", "RequestController.php"] =
        some (.file mode text.toUTF8) ∧
      Php.declared text = ["RequestController".toList] ∧ ¬ Php.Apart text := by
  intro o
  have h : First (freshTree srv) o "Request" ⟨.ofPascal "Request", .ofPascal "Requests"⟩ :=
    ⟨Stubs.fresh_freshTree, rfl, by decide +kernel, by decide +kernel, by decide⟩
  obtain ⟨report, w', hgenerate, hran, hcreated⟩ :=
    h.exists_created (w := Workspace.start _) (by decide +kernel) rfl (Renderer.faithful_start _ _) 0
  obtain ⟨tgt, text, hfile⟩ := h.requested.classFile_created hran rfl (hcreated (.web, .controller) (by decide))
  obtain ⟨mode, hentry⟩ := hfile.entry
  have htarget : Layout.target? { basePath := Path.here } ⟨.ofPascal "Request", .ofPascal "Requests"⟩
      (Layout.version { basePath := Path.here } none) .web .controller = some
        { path := ⟨.relative, ["app", "Http", "Controllers", "Web", "Request", "RequestController.php"]⟩
          «namespace» := "App\\Http\\Controllers\\Web\\Request"
          className := "RequestController" } := by
    decide +kernel
  have htgt := Layout.target_eq hfile.target
  rw [htarget] at htgt
  cases htgt
  refine ⟨by decide +kernel, report, w', mode, text, hgenerate, hentry, hfile.declared, ?_⟩
  rw [hfile.apart]
  decide +kernel

end Project

end Scaffold
