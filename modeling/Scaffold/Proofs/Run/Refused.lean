import Scaffold.Proofs.Run.Frame
import Scaffold.Proofs.Run.Request

/-!
# Runs that stop before the first artifact

A run stops early where the request is refused, where a check fails itself, and where the columns cannot be looked
up. Nothing has been written by then (`generate_refused`), as long as the storage makes no file when it is opened
(`Storage.Idle`). What the columns come to does not depend on the log (`Introspect.columns_fails_logged`), so it
does not matter what a run has logged before it asks for them.
-/

namespace Scaffold

/-- To open the storage on a tree makes no file there. -/
def Storage.Idle (s : Storage) (t : Tree) : Prop :=
  ∀ w backend w', w.tree = t → s.connect w = .ok backend w' → w'.tree = t

section Connect
variable {w w' : Workspace} {backend : Backend} {names : Naming} {config : Config} {f : Fault}

theorem Storage.idle_answers (backend : Backend) (t : Tree) : (Storage.answers backend).Idle t := by
  intro w _ w' ht h
  cases h
  exact ht

theorem Sqlite.openFile_logged (create : Bool) (l : Scaffold.Location) (log : List LogLine)
    (h : Sqlite.openFile create l w = .ok backend w') :
    Sqlite.openFile create l { w with log := log } = .ok backend { w' with log := log } := by
  have hsame : ∀ bytes, Sqlite.contents { w with log := log } l bytes = Sqlite.contents w l bytes :=
    contents_congr rfl l
  unfold openFile at h ⊢
  split at h
  · next held => cases h; simp only [held]
  · next standing _ => cases h; simp_all only
  · next standing _ => cases h; simp_all only
  · next standing _ => cases create <;> cases h <;> simp_all

theorem Sqlite.connect_logged (location : Sqlite.Location) (log : List LogLine)
    (h : Sqlite.connect location w = .ok backend w') :
    Sqlite.connect location { w with log := log } = .ok backend { w' with log := log } := by
  cases location with
  | memory => cases h; rfl
  | nowhere => cases h; rfl
  | file p create =>
    simp only [connect] at h ⊢
    split
    · next hnull =>
      rw [if_pos hnull] at h
      cases h
      rfl
    · next hnull =>
      rw [if_neg hnull] at h
      split
      · next hlocate =>
        rw [hlocate] at h
        cases h
        rfl
      · next l hlocate =>
        rw [hlocate] at h
        exact openFile_logged create l log h

theorem Storage.connect_logged (s : Storage) (log : List LogLine) (h : s.connect w = .ok backend w') :
    s.connect { w with log := log } = .ok backend { w' with log := log } := by
  cases s with
  | answers b => cases h; rfl
  | sqlite location => exact Sqlite.connect_logged location log h

/-- Whatever is in the log, the columns fail to be looked up in the same way, and where the storage is idle that
changes nothing. -/
theorem Introspect.columns_fails_logged {storage : Option Storage} (log : List LogLine)
    (hidle : ∀ s, storage = some s → s.Idle w.tree)
    (h : Introspect.columns storage config names w = .error f w') :
    ∃ w₁, Introspect.columns storage config names { w with log := log } = .error f w₁ ∧ w₁.tree = w.tree := by
  cases storage with
  | none => cases h
  | some s =>
    rw [columns_some] at h ⊢
    simp only [bind, EStateM.bind] at h ⊢
    obtain ⟨backend, w₁, hconnect, -⟩ := wp_returns (s.wp_connect w)
    have htree : w₁.tree = w.tree := hidle s rfl w backend w₁ rfl hconnect
    rw [hconnect] at h
    obtain ⟨-, hagain⟩ := (answers_blind config names backend).fails_again h
    obtain ⟨w₂, hfails, hsame⟩ := hagain { w₁ with log := log }
    rw [s.connect_logged log hconnect]
    exact ⟨w₂, hfails, hsame.1.trans htree⟩

end Connect

namespace Generator
variable {g : Generator} {entity : String} {o : Options} {elapsed : Float} {w : Workspace} {review : Review}
  {names : Naming} {f : Fault}

theorem generate_unchecked (h : Review.ofRequest w.tree (some entity) o g.config = .error f) :
    ∃ w', g.generate entity o elapsed w = .error f w' ∧ w' = { w with log := w'.log } := by
  have hends : wp (g.generate entity o elapsed) (fun _ _ => False)
      (fun f' w' => f' = f ∧ w' = { w with log := w'.log }) w := by
    refine wp_generate (fun _ _ _ h => h) (fun _ w' log h => ⟨h.1, congrArg ({ · with log := log }) h.2⟩)
      (wp_checked ?_)
    rw [h]
    exact ⟨rfl, rfl⟩
  obtain ⟨_, w', hfails, rfl, hw⟩ := wp_fails hends
  exact ⟨w', hfails, hw⟩

/-- A refused request leaves nothing but lines in the log: no question was asked and no file was read or written. -/
theorem generate_rejected (hreview : Review.ofRequest w.tree (some entity) o g.config = .ok review)
    (herrors : review.hasErrors = true) :
    ∃ report w', g.generate entity o elapsed w = .ok report w' ∧ report.success = false ∧ report.results = [] ∧
      report.errors = review.errors.map Finding.text ∧ w' = { w with log := w'.log } := by
  have hends : wp (g.generate entity o elapsed) (fun report w' => (report.success = false ∧ report.results = [] ∧
      report.errors = review.errors.map Finding.text) ∧ w' = { w with log := w'.log }) (fun _ _ => False) w := by
    refine wp_generate (fun _ w' log h => ⟨h.1, congrArg ({ · with log := log }) h.2⟩) (fun _ _ _ h => h)
      (wp_checked ?_)
    have hfailed : (reportOf entity review).success = false := not_success_reportOf herrors
    simp only [hreview, herrors, ↓reduceIte]
    exact fun log => ⟨⟨hfailed, rfl, rfl⟩, trivial⟩
  obtain ⟨report, w', hreturns, ⟨hsuccess, hresults, herrors'⟩, hw⟩ := wp_returns hends
  exact ⟨report, w', hreturns, hsuccess, hresults, herrors', hw⟩

theorem generate_unanswered {w₁ : Workspace} (hreview : Review.ofRequest w.tree (some entity) o g.config = .ok review)
    (herrors : review.hasErrors = false) (hn : Naming.derive? (Text.stripped entity) = some names)
    (hidle : ∀ s, g.storage? = some s → s.Idle w.tree)
    (h : Introspect.columns g.storage? g.config names w = .error f w₁) :
    ∃ w', g.generate entity o elapsed w = .error f w' ∧ w'.tree = w.tree := by
  have hends : wp (g.generate entity o elapsed) (fun _ _ => False)
      (fun f' w' => f' = f ∧ w'.tree = w.tree) w := by
    refine wp_generate (fun _ _ _ h => h) (fun _ _ _ h => h) (wp_checked ?_)
    simp only [hreview, herrors, Bool.false_eq_true, ↓reduceIte]
    refine fun log => wp_accepted hn _ fun log => ?_
    obtain ⟨w₂, hfails, htree⟩ := Introspect.columns_fails_logged log hidle h
    exact (wp_error hfails).2 ⟨rfl, htree⟩
  obtain ⟨_, w', hfails, rfl, htree⟩ := wp_fails hends
  exact ⟨w', hfails, htree⟩

/-- A run that stops before its first artifact leaves no trace in the file system. If checks find an error, the run
returns with all that they found, without asking the storage; if a check or the storage fails, so does the run. -/
theorem generate_refused (g : Generator) (entity : String) (o : Options) (elapsed : Float) (w : Workspace)
    (hidle : ∀ s, g.storage? = some s → s.Idle w.tree) :
    (∀ f, Review.ofRequest w.tree (some entity) o g.config = .error f →
      ∃ w', g.generate entity o elapsed w = .error f w' ∧ w' = { w with log := w'.log }) ∧
    ∀ review, Review.ofRequest w.tree (some entity) o g.config = .ok review →
      (review.hasErrors = true →
        ∃ report w', g.generate entity o elapsed w = .ok report w' ∧ report.success = false ∧ report.results = [] ∧
          report.errors = review.errors.map Finding.text ∧ w' = { w with log := w'.log }) ∧
      (review.hasErrors = false →
        ∃ names, Naming.derive? (Text.stripped entity) = some names ∧
          ∀ f w₁, Introspect.columns g.storage? g.config names w = .error f w₁ →
            ∃ w', g.generate entity o elapsed w = .error f w' ∧ w'.tree = w.tree) := by
  refine ⟨fun f hf => generate_unchecked hf, fun review hreview => ⟨generate_rejected hreview, fun herrors => ?_⟩⟩
  obtain ⟨names, hn⟩ := Review.exists_derive hreview herrors
  exact ⟨names, hn, fun f w₁ h => generate_unanswered hreview herrors hn hidle h⟩

/-- A backend that knows every table, but cannot list its columns. -/
def lossyBackend : Backend where
  hasTable _ := .ok true
  columnNames _ := .error (.defect "gone")
  describe _ := .ok []

/-- A reserved word is refused without a question to the backend; another entity fails as the backend does. -/
theorem generate_refused_list :
    let g := { projectGenerator [] with storage := some (.answers lossyBackend) }
    let w := Workspace.start projectTree
    (∃ report w', g.generate "List" classesOnly 0 w = .ok report w' ∧ report.success = false ∧ report.results = [] ∧
      report.errors = ["[ERROR] ENTITY_RESERVED: 'List' is a reserved word in PHP and cannot be a class name."] ∧
        w' = { w with log := w'.log }) ∧
      ∃ w', g.generate "Invoice" classesOnly 0 w = .error (.backend (.defect "gone")) w' ∧ w'.tree = w.tree := by
  intro g w
  have hidle : ∀ s, g.storage? = some s → s.Idle w.tree := by
    rintro s hs
    cases hs
    exact Storage.idle_answers lossyBackend _
  constructor
  · have herrors : (Review.ofRequest w.tree (some "List") classesOnly g.config).map (·.errors.map Finding.text) =
        .ok ["[ERROR] ENTITY_RESERVED: 'List' is a reserved word in PHP and cannot be a class name."] := by
      decide +kernel
    have hrefused : (Review.ofRequest w.tree (some "List") classesOnly g.config).map Review.hasErrors = .ok true := by
      decide +kernel
    cases hreview : Review.ofRequest w.tree (some "List") classesOnly g.config with
    | error f => rw [hreview] at hrefused; cases hrefused
    | ok review =>
      rw [hreview] at herrors hrefused
      rw [← Except.ok.inj herrors]
      exact ((generate_refused g "List" classesOnly 0 w hidle).2 review hreview).1 (Except.ok.inj hrefused)
  · have haccepts : Review.accepts w.tree (some "Invoice") classesOnly g.config = true := by decide +kernel
    obtain ⟨review, hreview, herrors⟩ := Review.accepts_eq_true haccepts
    obtain ⟨names, -, hfails⟩ := ((generate_refused g "Invoice" classesOnly 0 w hidle).2 review hreview).2 herrors
    exact hfails _ _ rfl

end Generator

end Scaffold
