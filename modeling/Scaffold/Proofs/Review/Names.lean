import Scaffold.Proofs.Run.Request

/-!
# Which names a review takes

A version is one name and a namespace several, with backslashes between them. `takes_names` says for every text
whether a review takes it as the one or the other: a newline behind the last name is let through, and nothing else
that is not spelled so.
-/

namespace Scaffold.Review

/-- What a name of PHP starts with: an ASCII letter or an underscore. -/
def Starts (c : Char) : Prop :=
  'A' ≤ c ∧ c ≤ 'Z' ∨ 'a' ≤ c ∧ c ≤ 'z' ∨ c = '_'

/-- What it goes on with: also digits. -/
def Continues (c : Char) : Prop :=
  Starts c ∨ '0' ≤ c ∧ c ≤ '9'

inductive IsName : List Char → Prop where
  | intro {c : Char} {cs : List Char} (start : Starts c) (rest : ∀ d ∈ cs, Continues d) : IsName (c :: cs)

/-- One name, or several with a backslash between each two. -/
inductive IsQualified : List Char → Prop where
  | last {cs : List Char} (name : IsName cs) : IsQualified cs
  | level {cs rest : List Char} (name : IsName cs) (more : IsQualified rest) : IsQualified (cs ++ '\\' :: rest)

/-- A text of the form `P` with at most one newline behind it. -/
def UpToNewline (P : List Char → Prop) (s : String) : Prop :=
  P s.toList ∨ ∃ cs, s.toList = cs ++ ['\n'] ∧ P cs

/-- Some finding has the code. -/
def Reports (r : Review) (code : String) : Prop :=
  ∃ f ∈ r, f.code = code

variable {c : Char} {cs : List Char} {s v code key ns : String} {r r' : Review} {t : Tree} {config : Config}

section Names

theorem isUpper_iff : c.isUpper = true ↔ 'A' ≤ c ∧ c ≤ 'Z' :=
  decide_eq_true_iff

theorem isLower_iff : c.isLower = true ↔ 'a' ≤ c ∧ c ≤ 'z' :=
  Bool.and_eq_true_iff.trans (and_congr decide_eq_true_iff decide_eq_true_iff)

theorem isDigit_iff : c.isDigit = true ↔ '0' ≤ c ∧ c ≤ '9' :=
  Bool.and_eq_true_iff.trans (and_congr decide_eq_true_iff decide_eq_true_iff)

theorem isNameStart_iff : isNameStart c = true ↔ Starts c := by
  show ((c.isUpper || c.isLower) || c == '_') = true ↔ _
  rw [Bool.or_eq_true, Bool.or_eq_true, isUpper_iff, isLower_iff, beq_iff_eq, or_assoc]
  exact Iff.rfl

theorem isNameRest_iff : isNameRest c = true ↔ Continues c := by
  show ((c.isUpper || c.isLower || c.isDigit) || c == '_') = true ↔ _
  rw [Continues, ← isNameStart_iff, Bool.or_eq_true, Bool.or_eq_true, isDigit_iff, or_right_comm, ← Bool.or_eq_true]
  exact Iff.rfl

theorem isIdentifier_iff : isIdentifier cs = true ↔ IsName cs := by
  cases cs with
  | nil =>
    refine iff_of_false Bool.false_ne_true fun h => ?_
    cases h
  | cons c cs =>
    simp only [isIdentifier, Bool.and_eq_true, List.all_eq_true, isNameStart_iff, isNameRest_iff]
    constructor
    · rintro ⟨start, rest⟩
      exact .intro start rest
    · rintro ⟨start, rest⟩
      exact ⟨start, rest⟩

theorem IsName.notMem (h : IsName cs) : '\\' ∉ cs := by
  intro hmem
  have hrest := isNameRest_of_identifier (isIdentifier_iff.2 h) hmem
  revert hrest
  decide

theorem isNamespace_of_qualified (h : IsQualified cs) : isNamespace cs = true := by
  induction h with
  | last name =>
    rw [isNamespace, Text.splitAtChar_of_notMem name.notMem, List.all_cons, isIdentifier_iff.2 name]
    rfl
  | level name _ ih =>
    rw [isNamespace, Text.splitAtChar_append, Text.splitAtChar_of_notMem name.notMem, List.singleton_append,
      List.all_cons, isIdentifier_iff.2 name]
    exact ih

theorem isNamespace_iff : isNamespace cs = true ↔ IsQualified cs := by
  refine ⟨fun h => ?_, isNamespace_of_qualified⟩
  induction cs using Text.split_induction '\\' with
  | last cs hcs =>
    rw [isNamespace, Text.splitAtChar_of_notMem hcs, List.all_cons, Bool.and_eq_true] at h
    exact .last (isIdentifier_iff.1 h.1)
  | cut as bs has ih =>
    rw [isNamespace, Text.splitAtChar_append, Text.splitAtChar_of_notMem has, List.singleton_append, List.all_cons,
      Bool.and_eq_true] at h
    exact .level (isIdentifier_iff.1 h.1) (ih h.2)

theorem matchesLine_iff {p : List Char → Bool} {P : List Char → Prop} (h : ∀ {cs}, p cs = true ↔ P cs) :
    matchesLine p s = true ↔ UpToNewline P s := by
  simp only [matchesLine, UpToNewline, Bool.or_eq_true, Bool.and_eq_true, beq_iff_eq, h]
  refine or_congr Iff.rfl ?_
  constructor
  · rintro ⟨hlast, hp⟩
    obtain ⟨cs, hcs⟩ := List.getLast?_eq_some_iff.1 hlast
    rw [hcs, List.dropLast_concat] at hp
    exact ⟨cs, hcs, hp⟩
  · rintro ⟨cs, hcs, hp⟩
    rw [hcs, List.getLast?_concat, List.dropLast_concat]
    exact ⟨rfl, hp⟩

end Names

section Findings

theorem reports_append : Reports (r ++ r') code ↔ Reports r code ∨ Reports r' code := by
  simp only [Reports, List.mem_append, or_and_right, exists_or]

theorem reports_flatMap {α : Type} {as : List α} {f : α → Review} :
    Reports (as.flatMap f) code ↔ ∃ a ∈ as, Reports (f a) code := by
  simp only [Reports, List.mem_flatMap]
  constructor
  · rintro ⟨f, ⟨a, ha, hf⟩, hcode⟩
    exact ⟨a, ha, f, hf, hcode⟩
  · rintro ⟨a, ha, f, hf, hcode⟩
    exact ⟨f, ⟨a, ha, hf⟩, hcode⟩

theorem reports_ofNamespace : Reports (ofNamespace key ns) "NAMESPACE_INVALID" ↔ matchesLine isNamespace ns = false := by
  unfold ofNamespace
  split
  · next h => simp [Reports, h]
  · next h => simpa [Reports, error] using h

theorem not_reports_ofPath : ¬ Reports (ofPath key s) "NAMESPACE_INVALID" := by
  unfold ofPath
  split <;> simp [Reports, error]

theorem not_reports_ofRouteFile : ¬ Reports (ofRouteFile key s) "NAMESPACE_INVALID" := by
  unfold ofRouteFile
  split <;> simp [Reports, warning]

theorem not_reports_ofVersion : ¬ Reports (ofVersion (some v)) "NAMESPACE_INVALID" := by
  unfold ofVersion
  simp only
  split
  · simp [Reports, error]
  · split <;> simp [Reports, warning]

theorem hasErrors_ofVersion : (ofVersion (some v)).hasErrors = false ↔ matchesLine isIdentifier v = true := by
  refine ⟨matchesLine_of_ofVersion, fun h => ?_⟩
  simp only [ofVersion, h, Bool.not_true, Bool.false_eq_true, ↓reduceIte]
  split <;> rfl

theorem reports_ofSettings : Reports (ofSettings config) "NAMESPACE_INVALID" ↔
    ∃ a ∈ namespacesOf config.namespaces, matchesLine isNamespace a.2 = false := by
  simp only [ofSettings, reports_append, reports_flatMap, reports_ofNamespace, not_reports_ofPath,
    not_reports_ofRouteFile, not_reports_ofVersion, and_false, exists_false, or_false]

/-- The review of a configuration asks the file system for the base path only. -/
theorem ofConfig_eq_ok {there : Bool} (h : t.isDirectory config.basePath = .ok there) :
    ∃ r, ofConfig t config = .ok r ∧
      (Reports r "NAMESPACE_INVALID" ↔ Reports (ofSettings config) "NAMESPACE_INVALID") := by
  refine ⟨_, by rw [ofConfig, h]; rfl, ?_⟩
  rw [reports_append]
  cases there <;> simp [Reports, warning]

end Findings

/-- A review takes as a version exactly the names, and as namespaces exactly the names with backslashes between
them, each with or without a newline behind it. -/
theorem takes_names (v : String) (t : Tree) (config : Config) :
    ((ofVersion (some v)).hasErrors = false ↔ UpToNewline IsName v) ∧
    ((∃ fault, t.isDirectory config.basePath = .error fault ∧ ofConfig t config = .error fault) ∨
      ∃ r, ofConfig t config = .ok r ∧ (¬ Reports r "NAMESPACE_INVALID" ↔
        ∀ ns ∈ [config.namespaces.controllers.api, config.namespaces.controllers.web,
          config.namespaces.requests.api, config.namespaces.requests.web, config.namespaces.resources,
          config.namespaces.services, config.namespaces.repositories, config.namespaces.dtos,
          config.namespaces.exceptions, config.namespaces.models], UpToNewline IsQualified ns)) := by
  refine ⟨hasErrors_ofVersion.trans (matchesLine_iff isIdentifier_iff), ?_⟩
  cases hbase : t.isDirectory config.basePath with
  | error fault => exact .inl ⟨fault, rfl, by rw [ofConfig, hbase]; rfl⟩
  | ok there =>
    obtain ⟨r, hr, hreports⟩ := ofConfig_eq_ok hbase
    refine .inr ⟨r, hr, ?_⟩
    have hten : ∀ P : String → Prop, (∀ a ∈ namespacesOf config.namespaces, P a.2) ↔
        ∀ ns ∈ (namespacesOf config.namespaces).map Prod.snd, P ns := fun P => List.forall_mem_map.symm
    rw [hreports, reports_ofSettings]
    simp only [not_exists, not_and, Bool.not_eq_false, matchesLine_iff isNamespace_iff]
    exact hten _

/-- A newline behind a name is let through. -/
theorem takes_newline : (ofVersion (some "V1\n")).hasErrors = false ∧ ¬ IsName "V1\n".toList ∧
    ∃ config r, ofConfig ⟨[], []⟩ config = .ok r ∧ ¬ Reports r "NAMESPACE_INVALID" ∧
      ¬ IsQualified config.namespaces.services.toList := by
  have hbase : Tree.isDirectory ⟨[], []⟩ Path.here = .ok true := by decide +kernel
  obtain ⟨r, hr, hreports⟩ := @ofConfig_eq_ok _ { namespaces := { services := "App\\Services\n" } } _ hbase
  refine ⟨by decide +kernel, fun h => ?_, _, r, hr, fun h => ?_, fun h => ?_⟩
  · have hname := isIdentifier_iff.2 h
    revert hname
    decide +kernel
  · obtain ⟨a, ha, hinvalid⟩ := reports_ofSettings.1 (hreports.1 h)
    revert a
    decide +kernel
  · have hnames := isNamespace_of_qualified h
    revert hnames
    decide +kernel

end Scaffold.Review
