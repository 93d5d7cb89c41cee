import Scaffold.Proofs.Run.Block
import Scaffold.Proofs.Run.Effect
import Scaffold.Proofs.Run.Supported

/-!
# References between generated classes

A generated file names other classes by the placeholders of their kinds. The substitutions are laid over
each other, and the later layers count more, so a reference is right if the layer of its class gives it and
each later layer has the same value or none (`Template.valueOf_append`). The one key that two layers have
is that of the controller in a block of routes, and there both mean the class that the routes call
(`references`).
-/

namespace Scaffold

namespace Template
variable {subs subs' : List (String × String)} {key v : String}

/-- A later layer leaves the value of a key unless it has another one. -/
theorem valueOf_append (h : valueOf subs key.toList = some v.toList) (hagree : ∀ a ∈ subs', a.1 = key → a.2 = v) :
    valueOf (subs ++ subs') key.toList = some v.toList := by
  by_cases hlater : ∃ a ∈ subs', a.1 = key
  · obtain ⟨a, ha, rfl⟩ := hlater
    have hsome : (subs'.reverse.lookup a.1).isSome :=
      List.lookup_isSome_iff.2 ⟨a, List.mem_reverse.2 ha, beq_self_eq_true _⟩
    obtain ⟨v', hv'⟩ := Option.isSome_iff_exists.1 hsome
    obtain ⟨b, hb, hkey, rfl⟩ : ∃ b ∈ subs'.reverse, b.1 = a.1 ∧ b.2 = v' := by
      obtain ⟨l₁, l₂, heq, -⟩ := List.lookup_eq_some_iff.1 hv'
      exact ⟨(a.1, v'), by rw [heq]; simp, rfl, rfl⟩
    refine valueOf_append_right ?_
    rw [valueOf, String.ofList_toList, hv', hagree b (List.mem_reverse.1 hb) hkey]
    rfl
  · rw [valueOf_append_left fun a ha hkey => hlater ⟨a, ha, hkey⟩, h]

end Template

namespace Generator
open Template (valueOf)

variable {run : Run} {c d : Category} {k k' : Kind} {t t' : Target} {config : Config} {names : Naming}
  {version : String} {subs subs' : List (String × String)}

/-- The keys of the layers that name no other class. -/
def plainKeys : List String :=
  ["perPage", "constructorProperties", "fromRequestProperties", "toArrayProperties", "validationRules",
   "searchFields", "sortableFields", "resourceFields", "namespace", "class", "viewType"]

theorem ne_of_mem_plainKeys (k : Kind) :
    ∀ key ∈ plainKeys, key ≠ k.placeholder ++ "Namespace" ∧ key ≠ k.placeholder ++ "Class" := by
  cases k <;> decide

/-- The placeholders of a kind stand for the namespace and the class of `t`. -/
structure Refers (subs : List (String × String)) (k : Kind) (t : Target) : Prop where
  toNamespace : valueOf subs (k.placeholder ++ "Namespace").toList = some t.namespace.toList
  toClass : valueOf subs (k.placeholder ++ "Class").toList = some t.className.toList

namespace Refers

theorem append_right (h : Refers subs' k t) : Refers (subs ++ subs') k t :=
  ⟨Template.valueOf_append_right h.toNamespace, Template.valueOf_append_right h.toClass⟩

theorem append (h : Refers subs k t)
    (hnamespace : ∀ a ∈ subs', a.1 = k.placeholder ++ "Namespace" → a.2 = t.namespace)
    (hclass : ∀ a ∈ subs', a.1 = k.placeholder ++ "Class" → a.2 = t.className) :
    Refers (subs ++ subs') k t :=
  ⟨Template.valueOf_append h.toNamespace hnamespace, Template.valueOf_append h.toClass hclass⟩

/-- A layer whose keys are no placeholders of classes. -/
theorem append_plain (h : Refers subs k t) (hplain : ∀ a ∈ subs', a.1 ∈ plainKeys) : Refers (subs ++ subs') k t :=
  h.append (fun a ha heq => absurd heq (ne_of_mem_plainKeys k _ (hplain a ha)).1)
    fun a ha heq => absurd heq (ne_of_mem_plainKeys k _ (hplain a ha)).2

end Refers

theorem placeholder_namespace_inj (h : k.placeholder ++ "Namespace" = k'.placeholder ++ "Namespace") : k = k' := by
  cases k <;> cases k' <;> first | rfl | exact absurd h (by decide)

theorem placeholder_class_inj (h : k.placeholder ++ "Class" = k'.placeholder ++ "Class") : k = k' := by
  cases k <;> cases k' <;> first | rfl | exact absurd h (by decide)

theorem placeholder_ne (k k' : Kind) : k.placeholder ++ "Namespace" ≠ k'.placeholder ++ "Class" := by
  cases k <;> cases k' <;> decide

theorem mem_classTargets : (k, t) ∈ Layout.classTargets config names version c ↔
    k ∈ c.kinds ∧ k.isClass = true ∧ Layout.target? config names version c k = some t := by
  simp only [Layout.classTargets, List.mem_filterMap, List.mem_filter, Option.map_eq_some_iff, Prod.mk.injEq]
  constructor
  · rintro ⟨k', ⟨hk, hclass⟩, t', ht, rfl, rfl⟩
    exact ⟨hk, hclass, ht⟩
  · rintro ⟨hk, hclass, ht⟩
    exact ⟨k, ⟨hk, hclass⟩, t, ht, rfl, rfl⟩

/-- A category has one layer entry for each placeholder of its classes. -/
theorem mem_classSubstitutions {a : String × String} : a ∈ classSubstitutions config names version c ↔
    ∃ k t, k ∈ c.kinds ∧ k.isClass = true ∧ Layout.target? config names version c k = some t ∧
      (a = (k.placeholder ++ "Namespace", t.namespace) ∨ a = (k.placeholder ++ "Class", t.className)) := by
  simp only [classSubstitutions, List.mem_flatMap, Prod.exists, mem_classTargets, List.mem_cons,
    List.not_mem_nil, or_false, and_assoc]

theorem classSubstitutions_agree (ht : Layout.target? config names version d k = some t)
    (hsame : k ∈ c.kinds → c = d) :
    (∀ a ∈ classSubstitutions config names version c, a.1 = k.placeholder ++ "Namespace" → a.2 = t.namespace) ∧
      ∀ a ∈ classSubstitutions config names version c, a.1 = k.placeholder ++ "Class" → a.2 = t.className := by
  constructor <;> intro a ha hkey
  · obtain ⟨k', t', hk, -, ht', rfl | rfl⟩ := mem_classSubstitutions.1 ha
    · obtain rfl := placeholder_namespace_inj hkey
      rw [hsame hk, ht] at ht'
      cases ht'
      rfl
    · exact absurd hkey.symm (placeholder_ne k k')
  · obtain ⟨k', t', hk, -, ht', rfl | rfl⟩ := mem_classSubstitutions.1 ha
    · exact absurd hkey (placeholder_ne k' k)
    · obtain rfl := placeholder_class_inj hkey
      rw [hsame hk, ht] at ht'
      cases ht'
      rfl

theorem valueOf_of_mem {key v : String} (h : (key, v) ∈ subs) (hagree : ∀ a ∈ subs, a.1 = key → a.2 = v) :
    valueOf subs key.toList = some v.toList := by
  obtain ⟨pre, post, rfl⟩ := List.append_of_mem h
  rw [List.append_cons]
  refine Template.valueOf_append (Template.valueOf_append_right ?_) fun a ha => hagree a (by simp [ha])
  simp [valueOf]

/-- The layer of a category gives the references to its own classes. -/
theorem refers_classSubstitutions (hk : k ∈ c.kinds) (hclass : k.isClass = true)
    (ht : Layout.target? config names version c k = some t) :
    Refers (classSubstitutions config names version c) k t := by
  obtain ⟨hnamespace, hclassName⟩ := classSubstitutions_agree ht fun _ => rfl
  exact ⟨valueOf_of_mem (mem_classSubstitutions.2 ⟨k, t, hk, hclass, ht, .inl rfl⟩) hnamespace,
    valueOf_of_mem (mem_classSubstitutions.2 ⟨k, t, hk, hclass, ht, .inr rfl⟩) hclassName⟩

theorem notMem_kinds_common (hc : c ≠ .common) (hk : k ∈ Category.common.kinds) : k ∉ c.kinds := by
  cases c <;> cases k <;> first | exact absurd rfl hc | exact absurd hk (by decide) | decide

theorem refers_categorySubstitutions (hd : d = .common ∨ d = c) (hk : k ∈ d.kinds) (hclass : k.isClass = true)
    (ht : Layout.target? run.config run.names run.version d k = some t) :
    Refers (categorySubstitutions run c) k t := by
  have hlayer := refers_classSubstitutions hk hclass ht
  refine Refers.append_plain ?_ fun a ha => ?_
  swap
  · have hkey : a.1 = "perPage" := by
      cases c <;> simp only [perPage, List.mem_singleton, List.not_mem_nil] at ha <;> rw [ha]
    rw [hkey]
    decide
  rcases hd with rfl | rfl
  · -- a common class: the layer of the category has no key for it
    refine Refers.append (Refers.append_right hlayer) ?_ ?_
    · split
      · exact fun a ha => by cases ha
      · next hc => exact (classSubstitutions_agree ht fun h => absurd h (notMem_kinds_common hc hk)).1
    · split
      · exact fun a ha => by cases ha
      · next hc => exact (classSubstitutions_agree ht fun h => absurd h (notMem_kinds_common hc hk)).2
  · split
    · next hcommon =>
      subst hcommon
      rw [List.append_nil]
      exact Refers.append_right hlayer
    · exact Refers.append_right hlayer

theorem Refers.append_fields {f : Fields} {v : Variant} (h : Refers subs k t) :
    Refers (subs ++ f.substitutions v) k t := by
  refine h.append_plain ?_
  simp [Fields.substitutions, plainKeys]

/-- Class files and views see each class by its own namespace and name. -/
theorem refers_fileSubstitutions (h : Refers (categorySubstitutions run c) k t) (k' : Kind) (t' : Target) :
    Refers (fileSubstitutions run c k' t') k t := by
  refine h.append_fields.append_plain ?_
  simp [plainKeys]

theorem refers_viewSubstitutions (h : Refers (categorySubstitutions run c) k t) (v : View) :
    Refers (viewSubstitutions run c v) k t := by
  refine h.append_fields.append_plain ?_
  simp [plainKeys]

theorem target?_routes (h : Layout.target? config names version c .routes = some t) :
    ∃ t', Layout.target? config names version c .controller = some t' ∧ t'.namespace = t.namespace ∧
      t'.className = t.className ∧ t.path = Layout.routeFile config c := by
  cases c with
  | common => cases h
  | api => cases h; exact ⟨_, rfl, rfl, rfl, rfl⟩
  | web => cases h; exact ⟨_, rfl, rfl, rfl, rfl⟩

/-- The keys of the layer of the routes. -/
def routeKeys : List String :=
  ["controller", "controllerNamespace", "controllerFqcn", "routePrefix", "middleware", "routeGroup"]

theorem eq_controller_of_mem_routeKeys (k : Kind) :
    ∀ key ∈ routeKeys, key ≠ k.placeholder ++ "Class" ∧ (key = k.placeholder ++ "Namespace" → k = .controller) := by
  cases k <;> decide

theorem namespace_of_mem_routeSubstitutions {a : String × String} (ha : a ∈ routeSubstitutions run c t)
    (hkey : a.1 = "controllerNamespace") : a.2 = t.namespace := by
  simp only [routeSubstitutions, List.mem_cons, List.not_mem_nil, or_false] at ha
  rcases ha with rfl | rfl | rfl | rfl | rfl | rfl <;> first | rfl | simp at hkey

/-- The layer of the routes has the placeholder for the namespace of the controller once more. -/
theorem refers_blockSubstitutions (hd : d = .common ∨ d = c)
    (ht : Layout.target? run.config run.names run.version d k = some t)
    (hroutes : Layout.target? run.config run.names run.version c .routes = some t')
    (h : Refers (categorySubstitutions run c) k t) : Refers (blockSubstitutions run c t') k t := by
  have hkeys : ∀ a ∈ routeSubstitutions run c t', a.1 ∈ routeKeys := fun a ha => List.mem_map_of_mem (f := Prod.fst) ha
  refine h.append (fun a ha hkey => ?_) fun a ha hkey =>
    absurd hkey (eq_controller_of_mem_routeKeys k _ (hkeys a ha)).1
  obtain rfl := (eq_controller_of_mem_routeKeys k _ (hkeys a ha)).2 hkey
  have hdc : d = c := hd.resolve_left <| by rintro rfl; cases ht
  subst hdc
  obtain ⟨t'', ht'', hnamespace, -⟩ := target?_routes hroutes
  rw [ht] at ht''
  cases ht''
  rw [namespace_of_mem_routeSubstitutions ha hkey, hnamespace]

section Import
variable {file : Path} {greeting : String}

theorem mem_imports_withImport (doc : Route.Document) (fqcn : String) :
    Route.importOf fqcn ∈ (doc.withImport (Route.importOf fqcn)).1.imports := by
  unfold Route.Document.withImport
  rw [Route.stripped_importOf]
  split
  · next h => simpa using h
  · simp [Route.Document.imports, List.filter_append, Route.stripped_importOf]

/-- Some text with the import of a class and a block is written to a route file. -/
def Imports (file : Path) (greeting fqcn : String) (t t' : Tree) : Prop :=
  ∃ text doc block, Route.StartsFrom t file greeting text ∧ Route.Document.parse text = .ok doc ∧
    Edit.Replaced t file (((doc.withImport s!"use {fqcn};").1.withBlock block).render) t' ∧
    s!"use {fqcn};" ∈ (doc.withImport s!"use {fqcn};").1.imports

theorem wp_merge_imports (names : Naming) (block fqcn : String) (w : Workspace) :
    wp (Route.merge file names block fqcn greeting)
      (fun r w' => r = .inserted → Imports file greeting fqcn w.tree w'.tree) (fun _ _ => True) w := by
  cases hm : Route.merge file names block fqcn greeting w with
  | error f w' => exact (wp_error hm).2 trivial
  | ok r w' =>
    refine (wp_ok hm).2 fun hr => ?_
    subst hr
    obtain ⟨text, doc, hs, hp, hreplaced⟩ := Route.replaced_of_inserted hm
    exact ⟨text, doc, block, hs, hp, hreplaced, mem_imports_withImport doc fqcn⟩

/-- Routes that are registered come with the import of the controller. -/
theorem wp_routes_imports (ht : Layout.target? run.config run.names run.version c .controller = some t)
    (w : Workspace) :
    wp (routes run c)
      (fun r w' => r.status = .created →
        Imports (Layout.routeFile run.config c) (boilerplate c) t.fqcn w.tree w'.tree)
      (fun _ _ => True) w := by
  unfold routes
  rw [wp_bind, wp_ofExcept']
  cases htarget : Layout.target run.config run.names run.version c .routes with
  | error f => trivial
  | ok tgt =>
    obtain ⟨t', ht', hnamespace, hclass, hpath⟩ := target?_routes (Layout.target_eq htarget)
    rw [ht] at ht'
    cases ht'
    have hfqcn : tgt.fqcn = t.fqcn := by simp only [Target.fqcn, hnamespace, hclass]
    simp only
    refine wp_template (none_mem_viewsOf (by simp)) w (fun _ _ _ _ => trivial) ?_
    rintro id block w₁ - ⟨htree⟩
    rw [wp_bind, hfqcn, hpath, ← htree]
    refine wp_mono (wp_merge_imports ..) ?_ fun _ _ _ => trivial
    rintro r w₂ himports
    rw [wp_pure]
    cases r with
    | inserted => exact fun _ => himports rfl
    | alreadyPresent => exact fun h => by cases h

end Import

/-- Whatever class file, view or block of routes refers to a class of its category or a common one, it does
so by the namespace and the name that the file of that class is rendered with; and routes that are
registered import the controller of their category. -/
theorem references (run : Run) {c d : Category} {k : Kind} (hd : d = .common ∨ d = c) (hk : k ∈ d.kinds)
    (hclass : k.isClass = true) :
    ∃ t, Layout.target run.config run.names run.version d k = .ok t ∧
      (valueOf (fileSubstitutions run d k t) "namespace".toList = some t.namespace.toList ∧
        valueOf (fileSubstitutions run d k t) "class".toList = some t.className.toList) ∧
      (∀ k' t', Refers (fileSubstitutions run c k' t') k t) ∧
      (∀ v, Refers (viewSubstitutions run c v) k t) ∧
      (∀ t', Layout.target run.config run.names run.version c .routes = .ok t' →
        Refers (blockSubstitutions run c t') k t) ∧
      (k = .controller → ∀ w, wp (routes run c)
        (fun r w' => r.status = .created →
          Imports (Layout.routeFile run.config c) (boilerplate c) t.fqcn w.tree w'.tree)
        (fun _ _ => True) w) := by
  obtain ⟨t, htarget⟩ := Layout.target_ok hk run.config run.names run.version
  have ht := Layout.target_eq htarget
  have h := refers_categorySubstitutions hd hk hclass ht
  refine ⟨t, htarget, ⟨Template.valueOf_append_right rfl, Template.valueOf_append_right rfl⟩,
    refers_fileSubstitutions h, refers_viewSubstitutions h, fun t' ht' => ?_, ?_⟩
  · exact refers_blockSubstitutions hd ht (Layout.target_eq ht') h
  · rintro rfl w
    have hdc : d = c := hd.resolve_left <| by rintro rfl; cases ht
    exact wp_routes_imports (hdc ▸ ht) w

/-- The controller of an API without versions. -/
theorem references_controller :
    let run : Run :=
      { config := {}, renderer := (ofConfig {}).renderer, names := ⟨.ofPascal "Book", .ofPascal "Books"⟩,
        force := false, version := "", fields := ⟨[], "books", [], []⟩ }
    ∃ t, Layout.target run.config run.names run.version .api .controller = .ok t ∧
      (valueOf (fileSubstitutions run .api .controller t) "namespace".toList = some t.namespace.toList ∧
        valueOf (fileSubstitutions run .api .controller t) "class".toList = some t.className.toList) ∧
      (∀ k' t', Refers (fileSubstitutions run .api k' t') .controller t) ∧
      (∀ v, Refers (viewSubstitutions run .api v) .controller t) ∧
      (∀ t', Layout.target run.config run.names run.version .api .routes = .ok t' →
        Refers (blockSubstitutions run .api t') .controller t) ∧
      (Kind.controller = .controller → ∀ w, wp (routes run .api)
        (fun r w' => r.status = .created →
          Imports (Layout.routeFile run.config .api) (boilerplate .api) t.fqcn w.tree w'.tree)
        (fun _ _ => True) w) :=
  references _ (.inr rfl) (by decide) (by decide)

end Generator

end Scaffold
