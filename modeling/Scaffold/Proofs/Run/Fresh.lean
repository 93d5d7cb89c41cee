import Scaffold.Proofs.Run.Requested

/-!
# The first entity of a fresh project

In a fresh project nothing stands in the way of an artifact, and its name leaves room for a temporary file
(`First.takes`). So the first entity is generated completely, but for API routes whose name the boilerplate has
(`First.generate_complete`).
-/

namespace Scaffold

section Sizes
open Edit (tempName)
variable {d : Char} {s part : String} {n : Naming} {version : String} {c : Category} {k : Kind} {rest : List String}

theorem Layout.utf8Size_of_isFileChar (h : isFileChar d = true) : d.utf8Size = 1 := by
  have hcases : d.isAlphanum = true ∨ d ∈ ['_', '\n', '-', '.'] := by
    simpa [isFileChar, Review.isLoose, Review.isNameRest, or_assoc] using h
  rw [Char.utf8Size_eq_one_iff]
  rcases hcases with halnum | hother
  · simp only [Char.isAlphanum, Char.isAlpha, Char.isUpper, Char.isLower, Char.isDigit, Bool.or_eq_true,
      Bool.and_eq_true, decide_eq_true_eq, UInt32.le_iff_toNat_le, ge_iff_le] at halnum
    have hends : 'Z'.val.toNat = 90 ∧ 'z'.val.toNat = 122 ∧ '9'.val.toNat = 57 := ⟨rfl, rfl, rfl⟩
    have hlast : (127 : UInt32).toNat = 127 := rfl
    rw [UInt32.le_iff_toNat_le]
    omega
  · simp only [List.mem_cons, List.not_mem_nil, or_false] at hother
    rcases hother with rfl | rfl | rfl | rfl <;> decide

/-- A name that is made of the signs of files has a byte for each. -/
theorem Layout.utf8ByteSize_of_isFileChar (h : ∀ d ∈ s.toList, isFileChar d = true) :
    s.utf8ByteSize = s.toList.length := by
  have hlist : ∀ cs : List Char, (∀ d ∈ cs, isFileChar d = true) → (String.ofList cs).utf8ByteSize = cs.length := by
    intro cs hcs
    induction cs with
    | nil => rfl
    | cons d cs ih =>
      obtain ⟨hd, hcs⟩ := List.forall_mem_cons.1 hcs
      rw [← List.singleton_append, String.ofList_append, String.utf8ByteSize_append, ih hcs,
        ← String.singleton_eq_ofList, String.utf8ByteSize_singleton, utf8Size_of_isFileChar hd, List.length_append,
        List.length_singleton]
  rw [← hlist s.toList h, String.ofList_toList]

theorem Edit.utf8ByteSize_tempName (name : String) : (tempName name 0).utf8ByteSize = name.utf8ByteSize + 14 := by
  have hname : tempName name 0 = "." ++ name ++ "." ++ "00000000" ++ ".tmp" := rfl
  have hends : ".".utf8ByteSize = 1 ∧ "00000000".utf8ByteSize = 8 ∧ ".tmp".utf8ByteSize = 4 := by decide
  simp only [hname, String.utf8ByteSize_append, hends]
  omega

/-- The names of files are not much longer than the spellings in them. -/
theorem Layout.length_of_mem_sources (hmodel : n.one.pascal.toList.length ≤ 100)
    (hplural : n.many.kebab.toList.length ≤ 206) (hversion : version.toList.length ≤ 206)
    (hrest : rest ∈ sources n version c k) (hpart : part ∈ rest) : part.toList.length ≤ 206 := by
  rcases mem_sources.1 hrest with ⟨-, -, v, rfl⟩ | ⟨place, hplace, ⟨-, rfl⟩ | ⟨-, rfl⟩⟩
  · have hfixed : ∀ s ∈ ["resources", "views", v.name ++ ".blade.php"], s.toList.length ≤ 206 := by
      cases v <;> decide
    simp only [List.mem_cons, List.not_mem_nil, or_false] at hpart
    rcases hpart with rfl | rfl | rfl | rfl
    · exact hfixed _ (by simp)
    · exact hfixed _ (by simp)
    · exact hplural
    · exact hfixed _ (by simp)
  · have hfixed : ∀ s ∈ ["routes", if c = .api then "api.php" else "web.php"], s.toList.length ≤ 206 := by
      cases c <;> decide
    exact hfixed part hpart
  · have hfamily : ∀ s ∈ "app" :: place.family.parts, s.toList.length ≤ 206 := by
      cases place.family <;> decide
    have haffixes : place.before.toList.length + place.after.toList.length ≤ 25 ∧
        ∀ name, Segment.fixed name ∈ place.below → name.toList.length ≤ 206 := by
      cases c <;> cases k <;> simp only [place?, Option.some.injEq, reduceCtorEq] at hplace <;> subst hplace <;> simp
    rw [classParts, List.mem_append, List.mem_append, List.mem_singleton] at hpart
    rcases hpart with (hpart | hpart) | rfl
    · exact hfamily part hpart
    · obtain ⟨segment, hsegment, rfl⟩ := List.mem_map.1 hpart
      cases segment with
      | model => exact hmodel.trans (by decide)
      | version => exact hversion
      | fixed name => exact haffixes.2 name hsegment
    · have hending : ".php".toList.length = 4 := by decide
      simp only [ClassPlace.className, String.toList_append, List.length_append, hending]
      omega

end Sizes

namespace Tree.Fresh
variable {t : Tree} {rest : List String} (h : t.Fresh)
include h

theorem stands_relative (hrest : ".." ∉ rest) (hne : rest ≠ []) (hshort : Tree.Short ⟨.relative, rest⟩) :
    t.stands ⟨.relative, rest⟩ = .ok false := by
  obtain ⟨there, hthere⟩ := Tree.stands_ok hshort t
  cases there with
  | false => exact hthere
  | true =>
    obtain ⟨e, -, hfind⟩ := Tree.stands_eq_true.1 hthere
    have hentry := Tree.find_eq_resolve hfind
    rw [h.entryAt_relative hrest hne] at hentry
    cases hentry

/-- A source can be put anywhere if its names leave room for that of a temporary file. -/
theorem takes_relative (hrest : Path.Source rest) (hnull : hasNull ⟨.relative, rest⟩ = false)
    (hroom : ∀ part ∈ rest, part.utf8ByteSize + 14 ≤ nameLimit) : t.takes ⟨.relative, rest⟩ = true := by
  obtain ⟨dirs, name, rfl, hname, -⟩ := hrest.exists_name
  have henters : t.Enters ⟨.relative, dirs ++ [name]⟩ t.home (dirs ++ [name]) :=
    ⟨[], rfl, hrest.names, rfl, h.home⟩
  refine (takes_iff henters hname).2
    ⟨hnull, ⟨fun part hpart => ?_, fun ps _ mode bytes hfile => ?_⟩, ?_, ?_, 0, by decide, ?_⟩
  · have hsize := hroom part (List.mem_append_left _ hpart)
    omega
  · by_cases hps : ps = []
    · rw [hps, List.append_nil, h.home] at hfile
      cases hfile
    · rw [h.empty ps hps] at hfile
      cases hfile
  · rw [h.empty _ (by simp)]
    simp
  · rw [Edit.utf8ByteSize_tempName]
    exact hroom name (by simp)
  · rw [List.append_assoc]
    exact h.empty _ (by simp)

end Tree.Fresh

namespace Route
variable {c : Call} {new : String}

/-- A route file that a call has started: the lines of the boilerplate with the import between them, an empty line
and the block. -/
def Call.Started (c : Call) (text : String) : Prop :=
  ∃ top rest, top ++ rest = fileLines c.boilerplate ∧
    Text.lines text = top ++ importOf c.fqcn :: rest ++ "" :: Document.keptLines c.block ++ [""]

/-- What every new route file imports. -/
def facade : String :=
  "Illuminate\\Support\\Facades\\Route"

theorem Call.Packaged.lines (h : c.Packaged) :
    (fileLines c.boilerplate).rdropWhile (fun l => !Text.isSolid l) = fileLines c.boilerplate ∧
      ∀ raw ∈ fileLines c.boilerplate, isImport (Text.stripped raw) = true → Text.stripped raw = importOf facade := by
  rcases h with h | h <;> rw [h] <;> decide +kernel

/-- A call that adds its routes to the boilerplate starts a route file. -/
theorem Call.started_of_change (hpackaged : c.Packaged) (hclean : c.Clean) (hfacade : c.fqcn ≠ facade)
    (h : c.change c.boilerplate = .ok (some new)) : '\r' ∉ new.toList ∧ c.Started new := by
  obtain ⟨hr, -⟩ := hpackaged.parses
  obtain ⟨hreturn, -, doc, hp, hlines⟩ := change_lines hr hclean h
  obtain ⟨hkept, himports⟩ := hpackaged.lines
  have hnew : importOf c.fqcn ∉ doc.imports := by
    rw [mem_imports hp (isImport_importOf _)]
    rintro ⟨raw, hraw, heq⟩
    have himport := himports raw hraw (heq ▸ isImport_importOf _)
    rw [heq, ← String.toList_inj, toList_importOf, toList_importOf] at himport
    exact hfacade (String.toList_inj.1 (by simpa using himport))
  obtain ⟨hls, stage, hreads, hs⟩ := parse_ok hp
  have hplace := (hreads.importPlace hs).rdropWhile_lines hreads
  rw [hls, hkept] at hplace
  refine ⟨hreturn, _, _, hplace.symm, ?_⟩
  rw [hlines, insertedLines, if_neg hnew, hls]
  simp

/-- A call on a file that is missing starts it, unless the boilerplate has the name of its routes. -/
theorem Call.fate_of_missing {t : Tree} {file : Path} (hpackaged : c.Packaged) (hclean : c.Clean)
    (hfacade : c.fqcn ≠ facade) (hstands : t.stands file = .ok false) (htakes : t.takes file = true) :
    if holdsToken c.boilerplate c.token = true then c.fate t file = (.skipped, none)
    else ∃ new, c.fate t file = (.created, some new) ∧ '\r' ∉ new.toList ∧ c.Started new := by
  obtain ⟨-, doc, hparse⟩ := hpackaged.parses
  rw [fate_of_takes (.missing hstands) htakes]
  split
  · next hheld =>
    rw [change_eq_none.2 ⟨⟨doc, hparse⟩, hheld⟩]
    rfl
  · next hfree =>
    have hchange := change_eq_some.2 ⟨doc, hparse, Bool.eq_false_iff.2 hfree, rfl⟩
    rw [hchange]
    exact ⟨_, rfl, started_of_change hpackaged hclean hfacade hchange⟩

end Route

namespace Generator.Run.Usual
variable {run : Run} {base : Path} {o : Options} {entity : String} {c : Category} {t : Target}

theorem fqcn_ne_facade (h : run.Usual base o entity)
    (ht : Layout.target? run.config run.names run.version c .routes = some t) : t.fqcn ≠ Route.facade := fun heq => by
  have hhead := congrArg List.head? (h.toList_fqcn ht)
  rw [heq] at hhead
  unfold controllerLead at hhead
  split at hhead <;> simp [Route.facade] at hhead

end Generator.Run.Usual

namespace Project
open Generator

/-- The first entity of a fresh project, with a model that is not too long. -/
structure First (t : Tree) (o : Options) (entity : String) (n : Naming) : Prop where
  fresh : t.Fresh
  version : o.apiVersion = none
  accepts : Review.accepts t (some entity) o {} = true
  named : Naming.derive? (Text.stripped entity) = some n
  length : n.one.pascal.toList.length ≤ 100

/-- The artifacts whose name stands in quotes in the file that they would start. -/
def Taken (n : Naming) (a : Category × Kind) : Prop :=
  a = (.api, .routes) ∧ n.many.kebab = "status"

instance (n : Naming) (a : Category × Kind) : Decidable (Taken n a) :=
  inferInstanceAs (Decidable (_ ∧ _))

namespace First
variable {t : Tree} {o : Options} {entity : String} {n : Naming} {c : Category} {k : Kind} {p : Path} {tgt : Target}
  {columns : List Column} {w w' : Workspace} {report : Report} (h : First t o entity n)
include h

theorem requested : Requested Path.here t o entity n where
  project := h.fresh.project
  version := by rw [h.version]; rfl
  accepts := h.accepts
  named := h.named

theorem takes (hp : p ∈ (runOf Path.here none o n columns).files c k) :
    t.stands p = .ok false ∧ t.takes p = true ∧ t.entryAt (p.resolveFrom t.home) = none := by
  obtain ⟨rest, hrest, rfl, -⟩ := h.requested.mem_files hp
  have hpresentable := h.requested.presentable n ⟨_, h.named⟩
  have hsource := Layout.source_of_mem hpresentable hrest
  have hne : rest ≠ [] := by
    obtain ⟨dirs, name, rfl, -⟩ := hsource.exists_name
    simp
  have hkebab : n.many.kebab.toList.length ≤ 206 := by
    have hplural := Naming.length_kebab_le h.named
    have hmodel := h.length
    omega
  have hversion : (Layout.version { basePath := Path.here } o.apiVersion).toList.length ≤ 206 := by
    rw [h.version]
    decide
  have hsize : ∀ part ∈ rest, part.utf8ByteSize ≤ 206 := fun part hpart => by
    rw [Layout.utf8ByteSize_of_isFileChar fun d hd => Layout.isFileChar_of_mem hpresentable hrest hpart hd]
    exact Layout.length_of_mem_sources h.length hkebab hversion hrest hpart
  have hnull : Tree.hasNull ⟨.relative, rest⟩ = false :=
    hasNull_file h.requested.presentable rfl ⟨_, h.named⟩ rfl hp
  refine ⟨h.fresh.stands_relative hsource.names hne fun part hpart => (hsize part hpart).trans (by decide),
    h.fresh.takes_relative hsource hnull fun part hpart => ?_, h.fresh.entryAt_relative hsource.names hne⟩
  exact (Nat.add_le_add_right (hsize part hpart) 14).trans (by decide)

theorem verdict_created (hk : k ∈ c.kinds) :
    t.verdict o.force ((runOf Path.here none o n columns).files c k) = .created := by
  have hfate : ∀ p ∈ (runOf Path.here none o n columns).files c k, t.fate o.force p = .created := fun p hp => by
    obtain ⟨hstands, htakes, -⟩ := h.takes hp
    simp [Tree.fate, hstands, htakes]
  obtain ⟨tgt, ht⟩ := Layout.target_ok hk (runOf Path.here none o n columns).config
    (runOf Path.here none o n columns).names (runOf Path.here none o n columns).version
  obtain ⟨p, hp⟩ : ∃ p, p ∈ (runOf Path.here none o n columns).files c k := by
    simp only [Run.files, Layout.files, Layout.target_eq ht]
    split
    · exact ⟨_, List.mem_map_of_mem (List.mem_cons_self ..)⟩
    · exact ⟨_, List.mem_singleton_self _⟩
  rw [Tree.verdict, if_neg, if_pos ⟨p, hp, hfate p hp⟩]
  rintro ⟨q, hq, hfailed⟩
  rw [hfate q hq] at hfailed
  cases hfailed

theorem holdsToken_boilerplate_iff (c : Category) :
    Route.holdsToken (boilerplate c) n.many.kebab = true ↔ Taken n (c, .routes) := by
  rw [holdsToken_boilerplate h.named c, Taken]
  simp

theorem fate_routes (ht : Routes (runOf Path.here none o n columns) c tgt) :
    if Taken n (c, .routes) then
      (routeCall (runOf Path.here none o n columns) c tgt).fate t tgt.path = (.skipped, none)
    else ∃ new, (routeCall (runOf Path.here none o n columns) c tgt).fate t tgt.path = (.created, some new) ∧
      '\r' ∉ new.toList ∧ (routeCall (runOf Path.here none o n columns) c tgt).Started new := by
  have husual := h.requested.usual none columns
  obtain ⟨hstands, htakes, -⟩ := h.takes (mem_files_routes ht)
  have hfate := Route.Call.fate_of_missing (packaged_boilerplate (runOf Path.here none o n columns) c tgt)
    (husual.clean_call (Layout.target_eq ht) h.requested.version) (husual.fqcn_ne_facade (Layout.target_eq ht))
    hstands htakes
  have hheld : Route.holdsToken (routeCall (runOf Path.here none o n columns) c tgt).boilerplate
      (routeCall (runOf Path.here none o n columns) c tgt).token = true ↔ Taken n (c, .routes) :=
    h.holdsToken_boilerplate_iff c
  simpa only [hheld] using hfate

theorem comesTo_eq {a : Category × Kind} (ha : a ∈ o.planned) :
    comesTo (runOf Path.here none o n columns) t a = if Taken n a then .skipped else .created := by
  obtain ⟨c, k⟩ := a
  by_cases hk : k = .routes
  · subst hk
    obtain ⟨tgt, ht⟩ := exists_routes ha (runOf Path.here none o n columns)
    have hfate := h.fate_routes ht
    rw [comesTo_routes ht]
    split at hfate
    · next htaken => rw [hfate, if_pos htaken]
    · next hfree =>
      obtain ⟨new, hnew, -⟩ := hfate
      rw [hnew, if_neg hfree]
  · have hfree : ¬ Taken n (c, k) := fun htaken => hk (congrArg Prod.snd htaken.1)
    rw [comesTo, if_neg hk, if_neg hfree]
    exact h.verdict_created (Options.mem_kinds ha)

/-- A run returns, and has done what each artifact comes to. -/
theorem exists_ran (hw : w.tree = t) (hcache : (Generator.usual Path.here none).renderer.Faithful w.cache)
    (elapsed : Float) : ∃ report w', (Generator.usual Path.here none).generate entity o elapsed w = .ok report w' ∧
      Made Path.here none t o n [] w report w' := by
  obtain ⟨report, w', hgenerate⟩ := h.requested.returns (w := w) rfl (fun c _ => h.fresh.not_garbled_routes c)
    ⟨hw ▸ .refl .., hcache⟩ elapsed
  obtain ⟨columns, hran⟩ : ∃ columns, Made Path.here none t o n columns w report w' :=
    h.requested.ran_first hw hcache hgenerate
  obtain ⟨w₁, w₂, hcolumns⟩ := hran.asked
  obtain rfl : [] = columns := by
    cases hcolumns
    rfl
  exact ⟨report, w', hgenerate, hran⟩

section Ran
variable (hran : Made Path.here none t o n [] w report w') (hw : w.tree = t)
include hran hw

theorem statuses_eq :
    report.statuses = o.planned.map fun a => (a.1, a.2, if Taken n a then .skipped else .created) := by
  rw [hran.statuses_eq fun _ _ _ _ => by rw [hw]]
  exact List.map_congr_left fun a ha => by rw [h.comesTo_eq ha]

theorem left_routes (hc : (c, .routes) ∈ o.planned) (ht : Routes (runOf Path.here none o n []) c tgt) :
    if Taken n (c, .routes) then w'.tree.entryAt (tgt.path.resolveFrom t.home) = none
    else ∃ text, w'.tree.readText tgt.path = .ok text ∧
      (routeCall (runOf Path.here none o n []) c tgt).Started text := by
  have hleft := hran.left (hw ▸ .refl ..) (h.requested.steady none [] hc) hc ht
  obtain ⟨-, htakes, hmissing⟩ := h.takes (mem_files_routes ht)
  have hfate := h.fate_routes ht
  rw [hw] at hleft
  split at hfate
  · next htaken => rw [if_pos htaken, hleft.kept (by rw [hfate]), hmissing]
  · next hfree =>
    obtain ⟨new, hnew, hreturn, hstarted⟩ := hfate
    rw [if_neg hfree]
    exact ⟨new, Tree.readText_of_find (Tree.hasNull_of_takes htakes) (hleft.written new (by rw [hnew])) hreturn,
      hstarted⟩

end Ran

/-- A run returns and creates all that it plans, if no name of routes is taken. -/
theorem exists_created (hfree : n.many.kebab ≠ "status") (hw : w.tree = t)
    (hcache : (Generator.usual Path.here none).renderer.Faithful w.cache) (elapsed : Float) :
    ∃ report w', (Generator.usual Path.here none).generate entity o elapsed w = .ok report w' ∧
      Made Path.here none t o n [] w report w' ∧ ∀ a ∈ o.planned, (a.1, a.2, .created) ∈ report.statuses := by
  obtain ⟨report, w', hgenerate, hran⟩ := h.exists_ran hw hcache elapsed
  refine ⟨report, w', hgenerate, hran, fun a ha => ?_⟩
  rw [h.statuses_eq hran hw]
  exact List.mem_map.2 ⟨a, ha, by rw [if_neg fun htaken : Taken n a => hfree htaken.2]⟩

/-- The first entity is generated completely, but for routes whose name is taken: every other artifact is created,
and each file of routes holds the boilerplate, the import of the controller and the block of the entity. -/
theorem generate_complete (hw : w.tree = t) (hcache : (Generator.ofConfig {}).renderer.Faithful w.cache)
    (elapsed : Float) : ∃ report w', (Generator.ofConfig {}).generate entity o elapsed w = .ok report w' ∧
      report.statuses = o.planned.map (fun a => (a.1, a.2, if Taken n a then .skipped else .created)) ∧
      ∀ c, (c, .routes) ∈ o.planned → ∀ tgt, Routes ((Generator.ofConfig {}).runOf o n []) c tgt →
        if Taken n (c, .routes) then w'.tree.entryAt (tgt.path.resolveFrom t.home) = none
        else ∃ text, w'.tree.readText tgt.path = .ok text ∧
          (routeCall ((Generator.ofConfig {}).runOf o n []) c tgt).Started text := by
  obtain ⟨report, w', hgenerate, hran⟩ := h.exists_ran hw hcache elapsed
  exact ⟨report, w', hgenerate, h.statuses_eq hran hw, fun c hc tgt ht => h.left_routes hran hw hc ht⟩

omit h in
theorem generate_complete_invoice : ∃ n report w', First (Stubs.freshTree Stubs.srv) { web := true } "Invoice" n ∧
    (Generator.ofConfig {}).generate "Invoice" { web := true } 0 (Workspace.start (Stubs.freshTree Stubs.srv)) =
      .ok report w' ∧
    report.statuses = ({ web := true } : Options).planned.map (fun a => (a.1, a.2, .created)) ∧
    ∀ c, c ≠ .common → ∀ tgt, Routes ((Generator.ofConfig {}).runOf { web := true } n []) c tgt →
      ∃ text, w'.tree.readText tgt.path = .ok text ∧
        (routeCall ((Generator.ofConfig {}).runOf { web := true } n []) c tgt).Started text := by
  have hnames : (Naming.derive? (Text.stripped "Invoice")).map (fun n => (n.one.pascal, n.many.kebab)) =
      some ("Invoice", "invoices") := by decide +kernel
  obtain ⟨n, hn, hspelled⟩ := Option.map_eq_some_iff.1 hnames
  rw [Prod.mk.injEq] at hspelled
  have h : First (Stubs.freshTree Stubs.srv) { web := true } "Invoice" n :=
    ⟨Stubs.fresh_freshTree, rfl, by decide +kernel, hn, by rw [hspelled.1]; decide⟩
  have hfree : ∀ a, ¬ Taken n a := fun a htaken => absurd (hspelled.2.symm.trans htaken.2) (by decide)
  obtain ⟨report, w', hgenerate, hstatuses, hroutes⟩ :=
    h.generate_complete (w := Workspace.start (Stubs.freshTree Stubs.srv)) rfl (Renderer.faithful_start _ _) 0
  simp only [hfree, ↓reduceIte] at hstatuses hroutes
  refine ⟨n, report, w', h, hgenerate, hstatuses, fun c hc tgt ht => hroutes c ?_ tgt ht⟩
  cases c with
  | common => exact absurd rfl hc
  | api => decide
  | web => decide

omit h in
/-- The routes of an entity whose plural is the quoted name in the boilerplate are left out. -/
theorem generate_taken : ∃ n report w', First (Stubs.freshTree Stubs.srv) {} "Statu" n ∧
    (Generator.ofConfig {}).generate "Statu" {} 0 (Workspace.start (Stubs.freshTree Stubs.srv)) = .ok report w' ∧
    (.api, .routes) ∈ ({} : Options).planned ∧ (.api, .routes, .skipped) ∈ report.statuses ∧
    w'.tree.entryAt ["srv", "routes", "api.php"] = none := by
  have hnames : (Naming.derive? (Text.stripped "Statu")).map (fun n => (n.one.pascal, n.many.kebab)) =
      some ("Statu", "status") := by decide +kernel
  obtain ⟨n, hn, hspelled⟩ := Option.map_eq_some_iff.1 hnames
  rw [Prod.mk.injEq] at hspelled
  have h : First (Stubs.freshTree Stubs.srv) {} "Statu" n :=
    ⟨Stubs.fresh_freshTree, rfl, by decide +kernel, hn, by rw [hspelled.1]; decide⟩
  have hplanned : (.api, .routes) ∈ ({} : Options).planned := by decide
  have htaken : Taken n (.api, .routes) := ⟨rfl, hspelled.2⟩
  have hcache := (Generator.usual Path.here none).renderer.faithful_start (Stubs.freshTree Stubs.srv)
  obtain ⟨report, w', hgenerate, hran⟩ := h.exists_ran (w := Workspace.start _) rfl hcache 0
  refine ⟨n, report, w', h, hgenerate, hplanned, ?_, ?_⟩
  · rw [h.statuses_eq hran rfl]
    exact List.mem_map.2 ⟨(.api, .routes), hplanned, by simp [htaken]⟩
  · obtain ⟨tgt, ht⟩ := exists_routes hplanned (runOf Path.here none {} n [])
    have hleft := h.left_routes hran rfl hplanned ht
    rw [if_pos htaken, path_routes (Options.mem_kinds hplanned) ht] at hleft
    exact hleft

end First

end Project

end Scaffold
