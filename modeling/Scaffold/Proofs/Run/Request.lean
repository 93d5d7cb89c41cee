import Scaffold.Layout
import Scaffold.Proofs.Name.Letters
import Scaffold.Proofs.Text.ReadBack
import Scaffold.Proofs.Tree.Read
import Scaffold.Review.Request

/-!
# What an accepted request has made sure of

A review that finds no error leaves a request whose files all lie below the base path of the project
(`Layout.below_target`) and whose namespaces and version are made of few characters, none of which ends
a line but the newline. Two paths below one base that lead to one place are one path (`Path.Below.inj`).
-/

namespace Scaffold

/-- What the rest of a run relies on. -/
structure Accepted (config : Config) (o : Options) : Prop where
  paths : ∀ a ∈ Review.pathsOf config, Review.leavesProject a.2 = false
  namespaces : ∀ a ∈ Review.namespacesOf config.namespaces, Review.matchesLine Review.isNamespace a.2 = true
  version : Review.matchesLine Review.isIdentifier (Layout.version config o.apiVersion) = true
  planned : o.planned ≠ []

theorem Accepted.path {config : Config} {o : Options} {s : String} (h : Accepted config o)
    (hs : s ∈ (Review.pathsOf config).map Prod.snd) : Review.leavesProject s = false := by
  obtain ⟨a, ha, rfl⟩ := List.mem_map.1 hs
  exact h.paths a ha

theorem Accepted.baseNamespace {config : Config} {o : Options} {s : String} (h : Accepted config o)
    (hs : s ∈ (Review.namespacesOf config.namespaces).map Prod.snd) :
    Review.matchesLine Review.isNamespace s = true := by
  obtain ⟨a, ha, rfl⟩ := List.mem_map.1 hs
  exact h.namespaces a ha

namespace Review
variable {t t' : Tree} {entity : Option String} {o : Options} {config : Config} {r r' : Review}

theorem hasErrors_append : (r ++ r').hasErrors = false ↔ r.hasErrors = false ∧ r'.hasErrors = false := by
  simp only [hasErrors, List.any_append, Bool.or_eq_false_iff]

theorem hasErrors_flatMap {α : Type} {as : List α} {f : α → Review} (h : hasErrors (as.flatMap f) = false)
    {a : α} (ha : a ∈ as) : (f a).hasErrors = false := by
  simp only [hasErrors, List.any_flatMap, List.any_eq_false] at h ⊢
  simpa using h a ha

theorem ofRequest_eq_ok : ofRequest t entity o config = .ok r ↔
    ∃ there, t.isDirectory config.basePath = .ok there ∧
      ofEntity entity ++ ofOptions o ++ (ofSettings config ++ if there then [] else
        warning "BASE_PATH_MISSING"
          s!"Project base path '{config.basePath}' does not exist; it will be created." []) = r := by
  unfold ofRequest ofConfig
  cases t.isDirectory config.basePath with
  | error f => simp [bind, Except.bind]
  | ok there => simp [bind, Except.bind, pure, Except.pure]

theorem ofRequest_error {f : Fault} (h : ofRequest t entity o config = .error f) : ∃ e, f = .os e := by
  cases hbase : t.isDirectory config.basePath with
  | ok there =>
    rw [ofRequest_eq_ok.2 ⟨there, hbase, rfl⟩] at h
    cases h
  | error f' =>
    simp only [ofRequest, ofConfig, hbase, bind, Except.bind] at h
    cases h
    exact Tree.isDirectory_error hbase

/-- A request is accepted again wherever its base path can be looked at. -/
theorem ofRequest_again (h : ofRequest t entity o config = .ok r) (hr : r.hasErrors = false) {there : Bool}
    (hbase : t'.isDirectory config.basePath = .ok there) :
    ∃ r', ofRequest t' entity o config = .ok r' ∧ r'.hasErrors = false := by
  obtain ⟨there₀, -, rfl⟩ := ofRequest_eq_ok.1 h
  obtain ⟨hfirst, hconfig⟩ := hasErrors_append.1 hr
  have hsettings := (hasErrors_append.1 hconfig).1
  refine ⟨_, ofRequest_eq_ok.2 ⟨there, hbase, rfl⟩, ?_⟩
  refine hasErrors_append.2 ⟨hfirst, hasErrors_append.2 ⟨hsettings, ?_⟩⟩
  cases there <;> rfl

/-- Whether a request is accepted. -/
def accepts (t : Tree) (entity : Option String) (o : Options) (config : Config) : Bool :=
  match ofRequest t entity o config with
  | .ok r => !r.hasErrors
  | .error _ => false

theorem accepts_eq_true (h : accepts t entity o config = true) :
    ∃ r, ofRequest t entity o config = .ok r ∧ r.hasErrors = false := by
  unfold accepts at h
  cases hr : ofRequest t entity o config with
  | error fault => rw [hr] at h; cases h
  | ok r => rw [hr] at h; exact ⟨r, rfl, by simpa using h⟩

theorem accepts_again (h : accepts t entity o config = true) {there : Bool}
    (hbase : t'.isDirectory config.basePath = .ok there) : accepts t' entity o config = true := by
  obtain ⟨r, hr, herrors⟩ := accepts_eq_true h
  obtain ⟨r', hr', herrors'⟩ := ofRequest_again hr herrors hbase
  rw [accepts, hr']
  simp [herrors']

theorem matchesLine_of_ofVersion {v : String} (h : (ofVersion (some v)).hasErrors = false) :
    matchesLine isIdentifier v = true := by
  cases hv : matchesLine isIdentifier v with
  | true => rfl
  | false =>
    simp only [ofVersion, hv, Bool.not_false, ↓reduceIte] at h
    cases h

theorem accepted (h : ofRequest t entity o config = .ok r) (hr : r.hasErrors = false) :
    Accepted config o := by
  obtain ⟨there, -, rfl⟩ := ofRequest_eq_ok.1 h
  obtain ⟨hfirst, hconfig⟩ := hasErrors_append.1 hr
  have hversion := (hasErrors_append.1 (hasErrors_append.1 hfirst).2).2
  obtain ⟨hsettings, hdefault⟩ := hasErrors_append.1 (hasErrors_append.1 hconfig).1
  obtain ⟨hnames, hpaths⟩ :=
    hasErrors_append.1 (hasErrors_append.1 (hasErrors_append.1 hsettings).1).1
  constructor
  · intro a ha
    have hok := hasErrors_flatMap hpaths ha
    cases hout : leavesProject a.2 with
    | false => rfl
    | true =>
      simp only [ofPath, hout, ↓reduceIte] at hok
      cases hok
  · intro a ha
    have hok := hasErrors_flatMap hnames ha
    cases hform : matchesLine isNamespace a.2 with
    | true => rfl
    | false =>
      simp only [ofNamespace, hform, Bool.false_eq_true, ↓reduceIte] at hok
      cases hok
  · unfold Layout.version
    split
    · next v hv =>
      split
      · exact matchesLine_of_ofVersion hdefault
      · exact matchesLine_of_ofVersion (hv ▸ hversion)
    · exact matchesLine_of_ofVersion hdefault
  · intro hnone
    have hasked := (hasErrors_append.1 (hasErrors_append.1 hfirst).2).1
    have hplanned := (hasErrors_append.1 hasked).1
    rw [hnone] at hplanned
    cases hplanned

theorem matchesLine_of_ofEntity {s : String} (h : (ofEntity (some s)).hasErrors = false) :
    matchesLine isEntityName (Text.stripped s) = true := by
  cases hform : matchesLine isEntityName (Text.stripped s) with
  | true => rfl
  | false =>
    unfold ofEntity at h
    simp only [Option.getD_some, hform, Bool.not_false, ↓reduceIte] at h
    split at h <;> cases h

theorem starts_of_matchesLine {s : String} (h : matchesLine isEntityName s = true) :
    ∃ c cs, s.toList = c :: cs ∧ c.isAlpha = true := by
  have hfirst : ∀ cs, isEntityName cs = true → ∃ c cs', cs = c :: cs' ∧ c.isAlpha = true := by
    rintro (_ | ⟨c, cs⟩) hname
    · cases hname
    · exact ⟨c, cs, rfl, (Bool.and_eq_true_iff.1 hname).1⟩
  simp only [matchesLine, Bool.or_eq_true, Bool.and_eq_true, beq_iff_eq] at h
  rcases h with h | ⟨hlast, h⟩
  · exact hfirst _ h
  · obtain ⟨init, hinit⟩ := List.getLast?_eq_some_iff.1 hlast
    rw [hinit, List.dropLast_concat] at h
    obtain ⟨c, cs, rfl, hletter⟩ := hfirst _ h
    exact ⟨c, cs ++ ['\n'], by rw [hinit, List.cons_append], hletter⟩

/-- An accepted entity starts with a letter, so names are derived from it. -/
theorem exists_derive {entityName : String} (h : ofRequest t (some entityName) o config = .ok r)
    (hr : r.hasErrors = false) : ∃ names, Naming.derive? (Text.stripped entityName) = some names := by
  obtain ⟨there, -, rfl⟩ := ofRequest_eq_ok.1 h
  have hentity := (hasErrors_append.1 (hasErrors_append.1 hr).1).1
  obtain ⟨c, cs, hcs, hletter⟩ := starts_of_matchesLine (matchesLine_of_ofEntity hentity)
  exact Naming.exists_derive (by simp [hcs]) (Bool.or_eq_true_iff.2 (.inl hletter))

section Letters
variable {c : Char} {cs : List Char} {s : String}

/-- What may stand in a text that passes for an identifier: one newline is allowed behind it. -/
def isLoose (c : Char) : Bool :=
  isNameRest c || c == '\n'

theorem isNameRest_of_alphanum (h : c.isAlphanum = true) : isNameRest c = true := by
  simp [isNameRest, h]

theorem isLoose_of_nameRest (h : isNameRest c = true) : isLoose c = true := by
  simp [isLoose, h]

theorem isNameRest_of_identifier (h : isIdentifier cs = true) (hc : c ∈ cs) : isNameRest c = true := by
  cases cs with
  | nil => cases hc
  | cons d cs =>
    simp only [isIdentifier, Bool.and_eq_true, List.all_eq_true] at h
    rcases List.mem_cons.1 hc with rfl | hc
    · have hstart := h.1
      simp only [isNameStart, isNameRest, Char.isAlphanum, Bool.or_eq_true] at hstart ⊢
      exact hstart.imp_left .inl
    · exact h.2 c hc

theorem isNameRest_of_namespace (h : isNamespace cs = true) (hc : c ∈ cs) :
    c = '\\' ∨ isNameRest c = true := by
  rw [← Text.joined_split '\\' cs] at hc
  rcases Text.mem_intercalate hc with hc | ⟨piece, hp, hc⟩
  · exact .inl (List.mem_singleton.1 hc)
  · exact .inr (isNameRest_of_identifier (List.all_eq_true.1 h piece hp) hc)

theorem mem_of_matchesLine {p : List Char → Bool} (h : matchesLine p s = true) (hc : c ∈ s.toList) :
    c = '\n' ∨ ∃ cs, p cs = true ∧ c ∈ cs := by
  simp only [matchesLine, Bool.or_eq_true, Bool.and_eq_true, beq_iff_eq] at h
  rcases h with h | ⟨hlast, h⟩
  · exact .inr ⟨_, h, hc⟩
  · obtain ⟨init, hinit⟩ := List.getLast?_eq_some_iff.1 hlast
    rw [hinit, List.dropLast_concat] at h
    rw [hinit, List.mem_append, List.mem_singleton] at hc
    exact hc.elim (fun hc => .inr ⟨init, h, hc⟩) .inl

theorem isLoose_of_identifier (h : matchesLine isIdentifier s = true) (hc : c ∈ s.toList) :
    isLoose c = true := by
  rcases mem_of_matchesLine h hc with rfl | ⟨cs, hcs, hc⟩
  · rfl
  · exact isLoose_of_nameRest (isNameRest_of_identifier hcs hc)

theorem isLoose_of_namespace (h : matchesLine isNamespace s = true) (hc : c ∈ s.toList) :
    c = '\\' ∨ isLoose c = true := by
  rcases mem_of_matchesLine h hc with rfl | ⟨cs, hcs, hc⟩
  · exact .inr rfl
  · exact (isNameRest_of_namespace hcs hc).imp_right isLoose_of_nameRest

theorem leavesProject_eq_false (hhead : s.toList.head? ≠ some '/') (hdots : s.toList.count '.' ≤ 1) :
    leavesProject s = false := by
  have hnone : s.toList.takeWhile (· == '/') = [] := by
    cases hs : s.toList with
    | nil => rfl
    | cons c cs =>
      rw [hs] at hhead
      simp only [List.head?_cons, ne_eq, Option.some.injEq] at hhead
      simp [hhead]
  have hrelative : (Path.ofString s).isAbsolute = false := by
    simp [Path.isAbsolute, Path.ofString, hnone, Path.anchorOf]
  have hclimbs : (Path.ofString s).climbs = false := by
    by_contra hup
    simp only [Path.climbs, Path.ofString, List.contains_eq_mem, decide_eq_true_eq, Bool.not_eq_false,
      List.mem_filter, List.mem_map] at hup
    obtain ⟨⟨piece, hpiece, heq⟩, -⟩ := hup
    -- a step up takes two points
    have hin := Text.infix_of_mem_splitAtChar hpiece
    rw [← String.toList_ofList (l := piece), heq] at hin
    have htwo : 2 ≤ s.toList.count '.' := hin.sublist.count_le '.'
    omega
  simp [leavesProject, hrelative, hclimbs]

end Letters

end Review

namespace Path
variable {base p q : Path} {s : String}

/-- `p` continues `base` without a step up. -/
def Below (base p : Path) : Prop :=
  ∃ rest, ".." ∉ rest ∧ p = ⟨base.anchor, base.parts ++ rest⟩

theorem Below.refl (base : Path) : Below base base :=
  ⟨[], by simp, by simp⟩

theorem Below.join (h : Below base p) (hs : Review.leavesProject s = false) : Below base (p / s) := by
  obtain ⟨rest, hrest, rfl⟩ := h
  simp only [Review.leavesProject, Bool.or_eq_false_iff] at hs
  obtain ⟨hrelative, hclimbs⟩ := hs
  refine ⟨rest ++ (ofString s).parts, fun hup => ?_, ?_⟩
  · rcases List.mem_append.1 hup with hup | hup
    · exact hrest hup
    · rw [climbs, List.contains_iff_mem.2 hup] at hclimbs
      cases hclimbs
  · show Path.append _ _ = _
    simp [append, hrelative]

theorem resolveFrom_below {rest : List String} (hrest : ".." ∉ rest) (home : List String) :
    resolveFrom home ⟨base.anchor, base.parts ++ rest⟩ = base.resolveFrom home ++ rest := by
  show follow _ (base.parts ++ rest) = follow _ base.parts ++ rest
  rw [follow_append, follow_of_not_climbs hrest]
  rfl

theorem Below.inj {home : List String} (hp : Below base p) (hq : Below base q)
    (h : p.resolveFrom home = q.resolveFrom home) : p = q := by
  obtain ⟨rest, hrest, rfl⟩ := hp
  obtain ⟨rest', hrest', rfl⟩ := hq
  rw [resolveFrom_below hrest, resolveFrom_below hrest', List.append_cancel_left_eq] at h
  rw [h]

end Path

namespace ClassPlace

/-- A model or a version comes first, and what is fixed is made of the letters of a name. -/
def isTidy (p : ClassPlace) : Bool :=
  p.below.head?.any (fun s => s = .model || s = .version) &&
    p.below.all (fun s => match s with
      | .fixed name => name.toList.all Review.isNameRest
      | _ => true) &&
    (p.before ++ p.after).toList.all Review.isNameRest

theorem isTidy_of_place? {c : Category} {k : Kind} {p : ClassPlace} (h : Layout.place? c k = some p) :
    p.isTidy = true := by
  cases c <;> cases k <;> simp only [Layout.place?, Option.some.injEq, reduceCtorEq] at h <;> subst h <;>
    decide

variable {p : ClassPlace} {model version s : String} {c : Char}

theorem isNameRest_className (hp : p.isTidy = true) (hm : ∀ c ∈ model.toList, Review.isNameRest c = true)
    (hc : c ∈ (p.className model).toList) : Review.isNameRest c = true := by
  simp only [isTidy, Bool.and_eq_true, List.all_eq_true, String.toList_append, List.mem_append] at hp
  simp only [className, String.toList_append, List.mem_append] at hc
  rcases hc with (hc | hc) | hc
  · exact hp.2 c (.inl hc)
  · exact hm c hc
  · exact hp.2 c (.inr hc)

theorem isLoose_segments (hp : p.isTidy = true) (hm : ∀ c ∈ model.toList, Review.isNameRest c = true)
    (hv : ∀ c ∈ version.toList, Review.isLoose c = true) (hs : s ∈ p.segments model version)
    (hc : c ∈ s.toList) : Review.isLoose c = true := by
  simp only [isTidy, Bool.and_eq_true, List.all_eq_true] at hp
  obtain ⟨segment, hmem, rfl⟩ := List.mem_map.1 hs
  have hfixed := hp.1.2 segment hmem
  cases segment with
  | model => exact Review.isLoose_of_nameRest (hm c hc)
  | version => exact hv c hc
  | fixed name => exact Review.isLoose_of_nameRest (List.all_eq_true.1 hfixed c hc)

theorem isLoose_namespaceName {n : Namespaces} (hp : p.isTidy = true)
    (hm : ∀ c ∈ model.toList, Review.isNameRest c = true)
    (hv : ∀ c ∈ version.toList, Review.isLoose c = true)
    (hn : Review.matchesLine Review.isNamespace (p.family.baseNamespace n) = true)
    (hc : c ∈ (p.namespaceName n model version).toList) : c = '\\' ∨ Review.isLoose c = true := by
  rw [namespaceName, String.toList_intercalate] at hc
  rcases Text.mem_intercalate hc with hc | ⟨l, hl, hc⟩
  · exact .inl (List.mem_singleton.1 hc)
  · obtain ⟨s, hs, rfl⟩ := List.mem_map.1 hl
    rcases List.mem_cons.1 hs with rfl | hs
    · exact Review.isLoose_of_namespace hn hc
    · exact .inr (isLoose_segments hp hm hv hs hc)

theorem count_intercalate_concat {d : Char} {sep last : List Char} {ls : List (List Char)} (hsep : d ∉ sep)
    (hls : ∀ l ∈ ls, d ∉ l) : (sep.intercalate (ls ++ [last])).count d = last.count d := by
  induction ls with
  | nil => simp
  | cons l ls ih =>
    rw [List.cons_append, List.intercalate_cons_of_ne_nil (by simp), List.count_append, List.count_append,
      ih fun l hl => hls l (List.mem_cons_of_mem _ hl), List.count_eq_zero.2 hsep,
      List.count_eq_zero.2 (hls l (List.mem_cons_self ..)), Nat.zero_add]

/-- The file of a class is written below its directory. -/
theorem file_stays (hp : p.isTidy = true) (hm : ∀ c ∈ model.toList, Review.isNameRest c = true)
    (hm0 : model.toList ≠ []) (hv : ∀ c ∈ version.toList, Review.isLoose c = true)
    (hv0 : version.toList ≠ []) : Review.leavesProject (p.file model version) = false := by
  have hloose := fun s (hs : s ∈ p.segments model version) c hc => isLoose_segments (c := c) hp hm hv hs hc
  have hfile : (p.file model version).toList = ['/'].intercalate
      ((p.segments model version).map String.toList ++ [(p.className model ++ ".php").toList]) := by
    rw [file, String.toList_intercalate, List.map_append, List.map_singleton]
    rfl
  -- the first segment starts with a letter, and the only point is that before the extension
  apply Review.leavesProject_eq_false
  · obtain ⟨first, rest, hsegments, c, cs, hfirst⟩ : ∃ first rest, p.segments model version = first :: rest ∧
        ∃ c cs, first.toList = c :: cs := by
      simp only [isTidy, Bool.and_eq_true] at hp
      unfold segments
      cases hbelow : p.below with
      | nil => rw [hbelow] at hp; cases hp.1.1
      | cons s rest =>
        refine ⟨_, _, rfl, List.exists_cons_of_ne_nil ?_⟩
        rw [hbelow] at hp
        have hs := hp.1.1
        simp only [List.head?_cons, Option.any_some, Bool.or_eq_true, decide_eq_true_eq] at hs
        rcases hs with rfl | rfl
        · exact hm0
        · exact hv0
    have hc : Review.isLoose c = true :=
      hloose first (hsegments ▸ List.mem_cons_self ..) c (hfirst ▸ List.mem_cons_self ..)
    rw [hfile, hsegments, List.map_cons, List.cons_append, List.intercalate_cons_of_ne_nil (by simp), hfirst]
    simp only [List.cons_append, List.head?_cons, ne_eq, Option.some.injEq]
    rintro rfl
    cases hc
  · have hnone : ∀ l ∈ (p.segments model version).map String.toList, '.' ∉ l := by
      rintro _ hl hdot
      obtain ⟨s, hs, rfl⟩ := List.mem_map.1 hl
      cases hloose s hs '.' hdot
    have hclass : '.' ∉ (p.className model).toList := fun hdot => by
      cases isNameRest_className hp hm hdot
    rw [hfile, count_intercalate_concat (by decide) hnone, String.toList_append, List.count_append,
      List.count_eq_zero.2 hclass]
    decide

end ClassPlace

namespace Layout
variable {config : Config} {o : Options} {names : Naming} {c : Category} {k : Kind} {t : Target}

theorem version_ne (ha : Accepted config o) : (version config o.apiVersion).toList ≠ [] := fun h => by
  have hv := ha.version
  rw [Review.matchesLine, h] at hv
  cases hv

theorem isNameRest_model (hn : names.Spelled) : ∀ c ∈ names.one.pascal.toList, Review.isNameRest c = true :=
  fun c hc => Review.isNameRest_of_alphanum (hn.pascal c hc)

theorem isLoose_version (ha : Accepted config o) :
    ∀ c ∈ (version config o.apiVersion).toList, Review.isLoose c = true :=
  fun _ hc => Review.isLoose_of_identifier ha.version hc

theorem below_target (ha : Accepted config o) (hn : names.Spelled)
    (ht : target? config names (version config o.apiVersion) c k = some t) :
    Path.Below config.basePath t.path := by
  unfold target? at ht
  split at ht
  · cases ht
    have hkebab : Review.leavesProject names.many.kebab = false := by
      refine Review.leavesProject_eq_false (fun h => ?_) ?_
      · rcases hn.kebab '/' (List.mem_of_mem_head? h) with h | h <;> cases h
      · rw [List.count_eq_zero.2 fun h => by rcases hn.kebab '.' h with h | h <;> cases h]
        omega
    exact ((Path.Below.refl _).join (ha.path (by simp [Review.pathsOf]))).join hkebab
  · obtain ⟨p, hp, rfl⟩ := Option.map_eq_some_iff.1 ht
    have htidy := ClassPlace.isTidy_of_place? hp
    show Path.Below _ (if k = .routes then routeFile config c else classFile config p _ _)
    split
    · refine (Path.Below.refl _).join ?_
      split
      · exact ha.path (by simp [Review.pathsOf])
      · exact ha.path (by simp [Review.pathsOf])
    · have hdir : Review.leavesProject (p.family.directory config.paths) = false := by
        cases p.family <;> exact ha.path (by simp [Family.directory, Review.pathsOf])
      exact (((Path.Below.refl _).join (ha.path (by simp [Review.pathsOf]))).join hdir).join
        (ClassPlace.file_stays htidy (isNameRest_model hn) hn.pascal_ne (isLoose_version ha) (version_ne ha))

theorem isNameRest_className (hn : names.Spelled) (hk : k ≠ .views)
    (ht : target? config names (version config o.apiVersion) c k = some t) :
    ∀ d ∈ t.className.toList, Review.isNameRest d = true := by
  intro d hd
  simp only [target?, hk, decide_false, Bool.and_false, Bool.false_eq_true, ↓reduceIte] at ht
  obtain ⟨p, hp, rfl⟩ := Option.map_eq_some_iff.1 ht
  exact ClassPlace.isNameRest_className (ClassPlace.isTidy_of_place? hp) (isNameRest_model hn) hd

theorem isLoose_namespace (ha : Accepted config o) (hn : names.Spelled) (hk : k ≠ .views)
    (ht : target? config names (version config o.apiVersion) c k = some t) :
    ∀ d ∈ t.namespace.toList, d = '\\' ∨ Review.isLoose d = true := by
  intro d hd
  simp only [target?, hk, decide_false, Bool.and_false, Bool.false_eq_true, ↓reduceIte] at ht
  obtain ⟨p, hp, rfl⟩ := Option.map_eq_some_iff.1 ht
  have hbase : Review.matchesLine Review.isNamespace (p.family.baseNamespace config.namespaces) = true := by
    cases p.family <;> exact ha.baseNamespace (by simp [Family.baseNamespace, Review.namespacesOf])
  exact ClassPlace.isLoose_namespaceName (ClassPlace.isTidy_of_place? hp) (isNameRest_model hn)
    (isLoose_version ha) hbase hd

theorem isLoose_fqcn (ha : Accepted config o) (hn : names.Spelled) (hk : k ≠ .views)
    (ht : target? config names (version config o.apiVersion) c k = some t) :
    ∀ d ∈ t.fqcn.toList, d = '\\' ∨ Review.isLoose d = true := by
  intro d hd
  unfold Target.fqcn at hd
  split at hd
  · exact isLoose_namespace ha hn hk ht d hd
  · rw [String.toList_append, String.toList_append, List.mem_append, List.mem_append] at hd
    rcases hd with (hd | hd) | hd
    · exact isLoose_namespace ha hn hk ht d hd
    · exact .inl (List.mem_singleton.1 hd)
    · exact .inr (Review.isLoose_of_nameRest (isNameRest_className hn hk ht d hd))

end Layout

end Scaffold
