import Scaffold.Proofs.Run.Pipeline
import Scaffold.Proofs.Run.Request
import Scaffold.Proofs.Tree.Grounded

/-!
# Where artifacts go in the usual layout

Where the directories are the usual ones, the files of an artifact are known by their components below the base
path (`Layout.files_eq`). They are sources (`Layout.source_of_mem`), and each class and each view has a file of
its own, that it shares with no other artifact and no other entity (`Layout.eq_of_mem_sources`).
-/

namespace Scaffold

namespace Path
variable {parts : List String} {s : String}

/-- What a component of a path may be, so that it is read as it is written. -/
structure Part (s : String) : Prop where
  noSlash : '/' ∉ s.toList
  ne_empty : s ≠ ""
  ne_dot : s ≠ "."

instance (s : String) : Decidable (Part s) :=
  decidable_of_iff ('/' ∉ s.toList ∧ s ≠ "" ∧ s ≠ ".") ⟨fun h => ⟨h.1, h.2.1, h.2.2⟩, fun h => ⟨h.1, h.2, h.3⟩⟩

theorem ofString_intercalate (hne : parts ≠ []) (h : ∀ part ∈ parts, Part part) :
    ofString ("/".intercalate parts) = ⟨.relative, parts⟩ := by
  have htext : ("/".intercalate parts).toList = ['/'].intercalate (parts.map String.toList) := by
    rw [String.toList_intercalate]
    rfl
  have hpieces : ∀ piece ∈ parts.map String.toList, '/' ∉ piece := fun piece hpiece => by
    obtain ⟨part, hpart, rfl⟩ := List.mem_map.1 hpiece
    exact (h part hpart).noSlash
  have hstart : ((['/'].intercalate (parts.map String.toList)).takeWhile (· == '/')) = [] := by
    obtain ⟨part, rest, rfl⟩ := List.exists_cons_of_ne_nil hne
    have hpart := h part (List.mem_cons_self ..)
    obtain ⟨c, cs, hc⟩ := List.exists_cons_of_ne_nil fun hnil => hpart.ne_empty (String.toList_eq_nil_iff.1 hnil)
    have hslash : c ≠ '/' := fun heq => hpart.noSlash (by rw [hc, heq]; exact List.mem_cons_self ..)
    cases rest with
    | nil => simp [hc, hslash]
    | cons next rest => simp [List.intercalate_cons_cons, hc, hslash]
  unfold ofString
  rw [htext, hstart, Text.splitAtChar_intercalate (by simpa using hne) hpieces, List.map_map]
  have hmap : parts.map (String.ofList ∘ String.toList) = parts := List.map_id'' (fun s => String.ofList_toList) _
  rw [hmap, List.filter_eq_self.2 fun part hpart => by simp [(h part hpart).ne_empty, (h part hpart).ne_dot]]
  rfl

theorem join_intercalate (p : Path) (parts : List String) (hne : parts ≠ []) (h : ∀ part ∈ parts, Part part) :
    p / "/".intercalate parts = ⟨p.anchor, p.parts ++ parts⟩ := by
  show p.append (ofString _) = _
  rw [ofString_intercalate hne h]
  rfl

theorem join_part (p : Path) (h : Part s) : p / s = ⟨p.anchor, p.parts ++ [s]⟩ := by
  have hjoin := p.join_intercalate [s] (by simp) (by simpa using h)
  rwa [String.intercalate_singleton] at hjoin

theorem part_of_forall (hne : s ≠ "") (h : ∀ c ∈ s.toList, c ≠ '/' ∧ c ≠ '.') : Part s where
  noSlash hmem := (h _ hmem).1 rfl
  ne_empty := hne
  ne_dot heq := (h '.' (by rw [heq]; decide)).2 rfl

theorem part_append {tail : String} (hs : '/' ∉ s.toList) (hne : s ≠ "") (htail : '/' ∉ tail.toList)
    (htail_ne : tail ≠ "") : Part (s ++ tail) := by
  obtain ⟨c, cs, hc⟩ := List.exists_cons_of_ne_nil fun hnil => hne (String.toList_eq_nil_iff.1 hnil)
  obtain ⟨d, ds, hd⟩ := List.exists_cons_of_ne_nil fun hnil => htail_ne (String.toList_eq_nil_iff.1 hnil)
  have hlist : (s ++ tail).toList = c :: cs ++ d :: ds := by rw [String.toList_append, hc, hd]
  refine ⟨fun hslash => ?_, fun heq => ?_, fun heq => ?_⟩
  · rw [String.toList_append, List.mem_append] at hslash
    exact hslash.elim hs htail
  · rw [heq] at hlist
    cases hlist
  · rw [heq] at hlist
    have hlength := congrArg List.length hlist
    simp at hlength

end Path

/-- The components of a family's usual directory. -/
def Family.parts : Family → List String
  | .controllersApi => ["Http", "Controllers", "Api"]
  | .controllersWeb => ["Http", "Controllers", "Web"]
  | .requestsApi => ["Http", "Requests", "Api"]
  | .requestsWeb => ["Http", "Requests", "Web"]
  | .resources => ["Http", "Resources", "Api"]
  | .services => ["Services"]
  | .repositories => ["Repositories"]
  | .dtos => ["DTOs"]
  | .exceptions => ["Exceptions"]

theorem Family.directory_eq (f : Family) : f.directory {} = "/".intercalate f.parts := by
  cases f <;> decide +kernel

theorem Family.part_of_mem (f : Family) : ∀ part ∈ f.parts, part ≠ "" ∧ ∀ c ∈ part.toList, c ≠ '/' ∧ c ≠ '.' := by
  have hall : ∀ part ∈ f.parts, part ≠ "" ∧ '/' ∉ part.toList ∧ '.' ∉ part.toList := by cases f <;> decide
  intro part hpart
  obtain ⟨hne, hslash, hdot⟩ := hall part hpart
  exact ⟨hne, fun c hc => ⟨fun h => hslash (h ▸ hc), fun h => hdot (h ▸ hc)⟩⟩

theorem Family.part_parts (f : Family) : ∀ part ∈ f.parts, Path.Part part := fun part hpart =>
  Path.part_of_forall (f.part_of_mem part hpart).1 (f.part_of_mem part hpart).2

theorem Family.parts_ne_nil (f : Family) : f.parts ≠ [] := by
  cases f <;> simp [parts]

/-- No family has its directory in that of another one. -/
theorem Family.eq_of_prefix {f f' : Family} (h : f.parts <+: f'.parts) : f = f' := by
  cases f <;> cases f' <;> first | rfl | exact absurd h (by decide)

/-- `p` with components behind it. -/
def Path.extend (p : Path) (parts : List String) : Path :=
  ⟨p.anchor, p.parts ++ parts⟩

namespace Layout
variable {config : Config} {names names' : Naming} {version version' : String} {c c' : Category} {k k' : Kind}
  {place place' : ClassPlace} {rest : List String}

/-- The components of a class file below the base path. -/
def classParts (place : ClassPlace) (model version : String) : List String :=
  ("app" :: place.family.parts ++ place.segments model version) ++ [place.className model ++ ".php"]

/-- The components of an artifact's files below the base path. -/
def sources (names : Naming) (version : String) (c : Category) (k : Kind) : List (List String) :=
  if c = .web && k = .views then
    View.all.map fun v => ["resources", "views", names.many.kebab, v.name ++ ".blade.php"]
  else match place? c k with
    | none => []
    | some place =>
      if k = .routes then [["routes", if c = .api then "api.php" else "web.php"]]
      else [classParts place names.one.pascal version]

/-- The spellings and the version can stand in paths. -/
structure Presentable (names : Naming) (version : String) : Prop where
  spelled : names.Spelled
  kebab_ne : names.many.kebab ≠ ""
  loose : ∀ d ∈ version.toList, Review.isLoose d = true
  version_ne : version.toList ≠ []

theorem ne_of_loose {d : Char} (h : Review.isLoose d = true) : d ≠ '/' ∧ d ≠ '.' := by
  constructor <;> rintro rfl <;> cases h

namespace Presentable
variable (h : Presentable names version)
include h

theorem kebab : ∀ d ∈ names.many.kebab.toList, d ≠ '/' ∧ d ≠ '.' := fun d hd => by
  rcases h.spelled.kebab d hd with rfl | halnum
  · decide
  · exact ne_of_loose (Review.isLoose_of_nameRest (Review.isNameRest_of_alphanum halnum))

theorem segment (hplace : place? c k = some place) {s : String}
    (hs : s ∈ place.segments names.one.pascal version) : s ≠ "" ∧ ∀ d ∈ s.toList, d ≠ '/' ∧ d ≠ '.' := by
  have htidy := ClassPlace.isTidy_of_place? hplace
  refine ⟨?_, fun d hd => ne_of_loose <|
    ClassPlace.isLoose_segments htidy (isNameRest_model h.spelled) h.loose hs hd⟩
  have hfixed : ∀ name, Segment.fixed name ∈ place.below → name ≠ "" := by
    cases c <;> cases k <;> simp only [place?, Option.some.injEq, reduceCtorEq] at hplace <;> subst hplace <;> simp
  obtain ⟨segment, hmem, rfl⟩ := List.mem_map.1 hs
  cases segment with
  | model => exact fun hempty => h.spelled.pascal_ne (by rw [show names.one.pascal = "" from hempty]; rfl)
  | version => exact fun hempty => h.version_ne (by rw [show version = "" from hempty]; rfl)
  | fixed name => exact hfixed name hmem

theorem className (hplace : place? c k = some place) :
    (∀ d ∈ (place.className names.one.pascal).toList, d ≠ '/' ∧ d ≠ '.') ∧
      place.className names.one.pascal ≠ "" := by
  refine ⟨fun d hd => ne_of_loose <| Review.isLoose_of_nameRest <|
    ClassPlace.isNameRest_className (ClassPlace.isTidy_of_place? hplace) (isNameRest_model h.spelled) hd, ?_⟩
  intro hempty
  refine h.spelled.pascal_ne ?_
  have hnil := congrArg String.toList hempty
  simp only [ClassPlace.className, String.toList_append, String.toList_empty, List.append_eq_nil_iff] at hnil
  exact hnil.1.2

end Presentable

section ClassFile
variable (h : Presentable names version) (hplace : place? c k = some place)
include h hplace

/-- The levels and the file of a class are components of their own. -/
theorem parts_file : ∀ part ∈ place.segments names.one.pascal version ++ [place.className names.one.pascal ++ ".php"],
    Path.Part part := by
  obtain ⟨hclass, hclass_ne⟩ := h.className hplace
  intro part hpart
  rcases List.mem_append.1 hpart with hpart | hpart
  · exact Path.part_of_forall (h.segment hplace hpart).1 (h.segment hplace hpart).2
  · rw [List.mem_singleton.1 hpart]
    exact Path.part_append (fun hs => (hclass _ hs).1 rfl) hclass_ne (by decide) (by decide)

theorem classFile_extend (config : Config) : classFile config place names.one.pascal version =
    (config.applicationPath / place.family.directory config.paths).extend
      (place.segments names.one.pascal version ++ [place.className names.one.pascal ++ ".php"]) := by
  rw [classFile, ClassPlace.file, Path.join_intercalate _ _ (by simp) (parts_file h hplace)]
  rfl

/-- The file of a class in the usual layout, seen from the application directory. -/
theorem classFile_usual (hpaths : config.paths = {}) : classFile config place names.one.pascal version =
    config.applicationPath.extend ((place.family.parts ++ place.segments names.one.pascal version) ++
      [place.className names.one.pascal ++ ".php"]) := by
  rw [classFile_extend h hplace, hpaths, Family.directory_eq, Path.join_intercalate _ _ place.family.parts_ne_nil
    place.family.part_parts]
  simp [Path.extend]

end ClassFile

section Files
variable (happ : config.appDir = "app") (hpaths : config.paths = {}) (h : Presentable names version)
include happ hpaths h

theorem classFile_eq (hplace : place? c k = some place) :
    classFile config place names.one.pascal version =
      ⟨config.basePath.anchor, config.basePath.parts ++ classParts place names.one.pascal version⟩ := by
  have happ' : Path.Part "app" := by decide
  rw [classFile_usual h hplace hpaths, Config.applicationPath, happ, Path.join_part _ happ']
  simp [Path.extend, classParts]

omit happ h in
theorem routeFile_eq (c : Category) : routeFile config c =
    ⟨config.basePath.anchor, config.basePath.parts ++ ["routes", if c = .api then "api.php" else "web.php"]⟩ := by
  have hapi : ({} : Directories).routes.api = "/".intercalate ["routes", "api.php"] := by decide +kernel
  have hweb : ({} : Directories).routes.web = "/".intercalate ["routes", "web.php"] := by decide +kernel
  unfold routeFile
  rw [hpaths]
  split
  · rw [hapi, Path.join_intercalate _ _ (by simp) (by decide)]
  · rw [hweb, Path.join_intercalate _ _ (by simp) (by decide)]

omit happ in
theorem view_eq (v : View) : viewDirectory config names / (v.name ++ ".blade.php") =
    ⟨config.basePath.anchor,
      config.basePath.parts ++ ["resources", "views", names.many.kebab, v.name ++ ".blade.php"]⟩ := by
  have hviews : ({} : Directories).views = "/".intercalate ["resources", "views"] := by decide +kernel
  have hkebab : Path.Part names.many.kebab := Path.part_of_forall h.kebab_ne h.kebab
  have hview : Path.Part (v.name ++ ".blade.php") := by cases v <;> decide
  unfold viewDirectory
  rw [hpaths, hviews, Path.join_intercalate _ _ (by simp) (by decide), Path.join_part _ hkebab, Path.join_part _ hview]
  simp

theorem files_eq : files config names version c k = (sources names version c k).map fun rest =>
    ⟨config.basePath.anchor, config.basePath.parts ++ rest⟩ := by
  unfold files target? sources
  by_cases hviews : c = .web && k = .views
  · rw [if_pos hviews, if_pos hviews]
    have hk : k = .views := by simpa using (Bool.and_eq_true_iff.1 hviews).2
    simp only [hk, ↓reduceIte, List.map_map]
    exact List.map_congr_left fun v _ => view_eq hpaths h v
  · rw [if_neg hviews, if_neg hviews]
    cases hplace : place? c k with
    | none => rfl
    | some place =>
      have hk : k ≠ .views := by
        rintro rfl
        cases c <;> cases hplace
      simp only [Option.map_some, hk, ↓reduceIte]
      split
      · rw [routeFile_eq hpaths]
        rfl
      · rw [classFile_eq happ hpaths h hplace]
        rfl

end Files

section Sources

theorem mem_sources : rest ∈ sources names version c k ↔
    (c = .web ∧ k = .views ∧ ∃ v : View, rest = ["resources", "views", names.many.kebab, v.name ++ ".blade.php"]) ∨
      ∃ place, place? c k = some place ∧
        (k = .routes ∧ rest = ["routes", if c = .api then "api.php" else "web.php"] ∨
          k ≠ .routes ∧ rest = classParts place names.one.pascal version) := by
  unfold sources
  by_cases hviews : c = .web ∧ k = .views
  · obtain ⟨rfl, rfl⟩ := hviews
    have hall : ∀ v : View, v ∈ View.all := fun v => by cases v <;> decide
    simp [place?, List.mem_map, hall, eq_comm]
  · rw [if_neg (by simpa using hviews)]
    cases place? c k with
    | none => simp [← and_assoc, hviews]
    | some place =>
      by_cases hk : k = .routes <;> simp [hk, ← and_assoc, hviews]

theorem source_of_mem (h : Presentable names version) (hrest : rest ∈ sources names version c k) :
    Path.Source rest := by
  rcases mem_sources.1 hrest with ⟨-, -, v, rfl⟩ | ⟨place, hplace, ⟨-, rfl⟩ | ⟨-, rfl⟩⟩
  · have hname : v.name ++ ".blade.php" = v.name ++ ".blade" ++ ".php" := by cases v <;> decide
    rw [hname]
    show Path.Source (["resources", "views", names.many.kebab] ++ [v.name ++ ".blade" ++ ".php"])
    refine .intro ?_ (by cases v <;> exact ⟨_, _, rfl, by decide⟩)
    simp only [List.forall_mem_cons, List.not_mem_nil, false_imp_iff, implies_true, and_true]
    exact ⟨by decide, by decide, fun hdot => (h.kebab _ hdot).2 rfl⟩
  · split
    · show Path.Source (["routes"] ++ ["api" ++ ".php"])
      exact .intro (by decide) ⟨'a', _, rfl, by decide⟩
    · show Path.Source (["routes"] ++ ["web" ++ ".php"])
      exact .intro (by decide) ⟨'w', _, rfl, by decide⟩
  · obtain ⟨hclass, hclass_ne⟩ := h.className hplace
    obtain ⟨d, ds, hd⟩ := List.exists_cons_of_ne_nil fun hnil => hclass_ne (String.toList_eq_nil_iff.1 hnil)
    refine .intro (fun part hpart hdot => ?_) ⟨d, ds, hd, (hclass d (hd ▸ List.mem_cons_self ..)).2⟩
    rcases List.mem_append.1 hpart with hpart | hpart
    · rcases List.mem_cons.1 hpart with rfl | hpart
      · exact absurd hdot (by decide)
      · exact ((place.family.part_of_mem part hpart).2 _ hdot).2 rfl
    · exact ((h.segment hplace hpart).2 _ hdot).2 rfl

end Sources

section Own

/-- The position of the model among the levels below a family's directory. -/
def lead : Family → Nat
  | .controllersApi | .requestsApi | .resources => 1
  | _ => 0

theorem below_lead (hplace : place? c k = some place) : place.below[lead place.family]? = some .model := by
  cases c <;> cases k <;> simp only [place?, Option.some.injEq, reduceCtorEq] at hplace <;> subst hplace <;> rfl

/-- What tells the classes of two places apart that share a directory. -/
def Told (p q : ClassPlace) : Prop :=
  p.before = q.before ∧ p.after ≠ q.after ∨
    ∃ d ∈ p.before.toList.head?, ∃ e ∈ q.before.toList.head?, d ≠ e

instance (p q : ClassPlace) : Decidable (Told p q) :=
  decidable_of_iff (p.before = q.before ∧ p.after ≠ q.after ∨
    (p.before.toList.head?.any fun d => q.before.toList.head?.any fun e => d != e) = true)
    (or_congr .rfl (by simp [Option.any_eq_true]))

/-- The places of all class files. -/
def classPlaces : List ((Category × Kind) × ClassPlace) :=
  (Category.all.flatMap fun c => Kind.all.map (c, ·)).filterMap fun a =>
    if a.2 = .routes then none else (place? a.1 a.2).map (a, ·)

theorem mem_classPlaces (hp : place? c k = some place) (hk : k ≠ .routes) : ((c, k), place) ∈ classPlaces := by
  refine List.mem_filterMap.2 ⟨(c, k), List.mem_flatMap.2 ⟨c, c.mem_all, List.mem_map_of_mem k.mem_all⟩, ?_⟩
  rw [if_neg hk, hp, Option.map_some]

theorem told_of_mem : ∀ a ∈ classPlaces, ∀ b ∈ classPlaces, a.2.family = b.2.family →
    a.2.below.length = b.2.below.length → a.1 = b.1 ∨ Told a.2 b.2 := by
  decide +kernel

theorem Told.className_ne (h : Told place place') (model : String) :
    place.className model ≠ place'.className model := by
  intro heq
  have hlist := congrArg String.toList heq
  simp only [ClassPlace.className, String.toList_append, List.append_assoc] at hlist
  rcases h with ⟨hbefore, hafter⟩ | ⟨d, hd, e, he, hne⟩
  · rw [hbefore, List.append_cancel_left_eq, List.append_cancel_left_eq] at hlist
    exact hafter (String.toList_inj.1 hlist)
  · have hhead := congrArg List.head? hlist
    rw [List.head?_append_of_ne_nil _ (fun hnil => by rw [hnil] at hd; cases hd),
      List.head?_append_of_ne_nil _ (fun hnil => by rw [hnil] at he; cases he), hd, he] at hhead
    exact hne (Option.some.inj hhead)

/-- A class file tells the entity and the artifact. -/
theorem eq_of_classParts {model model' : String} (hp : place? c k = some place) (hq : place? c' k' = some place')
    (hk : k ≠ .routes) (hk' : k' ≠ .routes)
    (h : classParts place model version = classParts place' model' version') :
    model = model' ∧ c = c' ∧ k = k' := by
  obtain ⟨hdirs, hfile⟩ := List.append_inj' h rfl
  rw [List.cons_append, List.cons_append, List.cons_inj_right] at hdirs
  have hfamily : place.family = place'.family := by
    rcases List.append_eq_append_iff.1 hdirs with ⟨as, has, -⟩ | ⟨as, has, -⟩
    · exact Family.eq_of_prefix ⟨as, has.symm⟩
    · exact (Family.eq_of_prefix ⟨as, has.symm⟩).symm
  rw [hfamily, List.append_cancel_left_eq] at hdirs
  have hlength : place.below.length = place'.below.length := by
    have := congrArg List.length hdirs
    simpa [ClassPlace.segments] using this
  have hmodel : model = model' := by
    have hlead := congrArg (·[lead place.family]?) hdirs
    simp only [ClassPlace.segments, List.getElem?_map, below_lead hp] at hlead
    rw [hfamily, below_lead hq] at hlead
    exact Option.some.inj hlead
  refine ⟨hmodel, ?_⟩
  subst hmodel
  refine Prod.mk.inj <| (told_of_mem _ (mem_classPlaces hp hk) _ (mem_classPlaces hq hk') hfamily
    hlength).resolve_right fun htold => htold.className_ne model ?_
  have hname := congrArg String.toList (List.singleton_inj.1 hfile)
  rw [String.toList_append, String.toList_append, List.append_cancel_right_eq] at hname
  exact String.toList_inj.1 hname

/-- A file of a class or a view tells the artifact, and the entity by its model or by the name of its views. -/
theorem eq_of_mem_sources (h : rest ∈ sources names version c k) (h' : rest ∈ sources names' version' c' k')
    (hk : k ≠ .routes) : c = c' ∧ k = k' ∧
      (names.one.pascal = names'.one.pascal ∨ names.many.kebab = names'.many.kebab) := by
  rcases mem_sources.1 h with ⟨rfl, rfl, v, rfl⟩ | ⟨place, hplace, ⟨rfl, rfl⟩ | ⟨-, rfl⟩⟩
  · rcases mem_sources.1 h' with ⟨rfl, rfl, v', heq⟩ | ⟨place', -, ⟨-, heq⟩ | ⟨-, heq⟩⟩
    · simp only [List.cons.injEq, true_and] at heq
      exact ⟨rfl, rfl, .inr heq.1⟩
    · simp at heq
    · simp [classParts] at heq
  · exact absurd rfl hk
  · rcases mem_sources.1 h' with ⟨rfl, rfl, v', heq⟩ | ⟨place', hplace', ⟨-, heq⟩ | ⟨hk', heq⟩⟩
    · simp [classParts] at heq
    · simp [classParts] at heq
    · obtain ⟨hmodel, rfl, rfl⟩ := eq_of_classParts hplace hplace' hk hk' heq
      exact ⟨rfl, rfl, .inl hmodel⟩

end Own

end Layout

end Scaffold
