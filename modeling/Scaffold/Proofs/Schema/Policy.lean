import Scaffold.Proofs.Column.Size
import Scaffold.Proofs.Run.Storage

/-!
# What is made of the answers of a backend

A lookup of columns asks its questions in a fixed order and stops at the first answer that settles it
(`Introspect.Course`, one constructor for each way to end). `Introspect.columns_policy` says that every backend is
dealt with in this way, and that what it reports of columns that it does not list makes no difference.
-/

namespace Scaffold

/-- Every run of digits in a text is short enough to be read as a number. -/
def Text.ShortRuns (s : String) : Prop :=
  ∀ digits, digits <:+: s.toList → (∀ d ∈ digits, isDecimalDigit d = true) → digits.length ≤ digitLimit

theorem Text.shortRuns_of_length {s : String} (h : s.length ≤ digitLimit) : ShortRuns s :=
  fun _ hwithin _ => hwithin.length_le.trans (s.length_toList ▸ h)

section Size
variable {cs digits : List Char} {raw : String}

theorem sizeDigits?_eq_some (h : sizeDigits? cs = some digits) :
    digits <:+: cs ∧ ∀ d ∈ digits, Text.isDecimalDigit d = true := by
  induction cs with
  | nil => cases h
  | cons c cs ih =>
    simp only [sizeDigits?] at h
    split at h
    · cases h
      exact ⟨(List.takeWhile_prefix _).isInfix.trans (List.suffix_cons c cs).isInfix,
        fun d hd => List.mem_takeWhile_imp hd⟩
    · obtain ⟨hwithin, hdigits⟩ := ih h
      exact ⟨hwithin.trans (List.suffix_cons c cs).isInfix, hdigits⟩

theorem maxLength?_of_shortRuns (h : Text.ShortRuns raw) : ∃ size, maxLength? raw = .ok size := by
  unfold maxLength?
  cases hd : sizeDigits? raw.toList with
  | none => exact ⟨none, rfl⟩
  | some digits =>
    obtain ⟨hwithin, hdigits⟩ := sizeDigits?_eq_some hd
    simp only [Nat.not_lt.2 (h digits hwithin hdigits), ↓reduceIte]
    exact ⟨_, rfl⟩

end Size

/-- The failures that make a description count as empty. -/
inductive BackendFault.Forgiven : BackendFault → Prop
  | unreachable (reason : Option String) : Forgiven (.unreachable reason)
  | unsupported (reason : String) : Forgiven (.unsupported reason)
  | database (cause : DatabaseFault) : Forgiven (.database cause)

namespace Backend
variable {b : Backend} {table : String}

/-- What is known of the columns of a table. -/
inductive Known (b : Backend) (table : String) : List (String × ReportedColumn) → Prop
  | described {known : List (String × ReportedColumn)} (h : b.describe table = .ok known) : Known b table known
  | forgiven {fault : BackendFault} (h : b.describe table = .error fault) (hfault : fault.Forgiven) : Known b table []

theorem Known.unique {known known' : List (String × ReportedColumn)} (h : b.Known table known)
    (h' : b.Known table known') : known = known' := by
  cases h with
  | described h =>
    cases h' with
    | described h' => exact Except.ok.inj (h.symm.trans h')
    | forgiven h' => cases h.symm.trans h'
  | forgiven h =>
    cases h' with
    | described h' => cases h.symm.trans h'
    | forgiven => rfl

theorem Known.forgiven_of_error {known : List (String × ReportedColumn)} {fault : BackendFault}
    (h : b.Known table known) (hfault : b.describe table = .error fault) : fault.Forgiven := by
  cases h with
  | described h => cases h.symm.trans hfault
  | forgiven h hforgiven => exact Except.error.inj (h.symm.trans hfault) ▸ hforgiven

/-- The names that a table lists are not empty, and the types that are reported of them hold no overlong number. -/
structure Reports (b : Backend) (table : String) : Prop where
  named : ∀ listed, b.columnNames table = .ok listed → "" ∉ listed
  readable : ∀ listed known, b.columnNames table = .ok listed → b.describe table = .ok known →
    ∀ name ∈ listed, ∀ r, known.reverse.lookup name = some r → Text.ShortRuns r.type

theorem Reports.readable_of_known {listed : List String} {known : List (String × ReportedColumn)}
    (h : b.Reports table) (hlisted : b.columnNames table = .ok listed) (hknown : b.Known table known) :
    ∀ name ∈ listed, ∀ r, known.reverse.lookup name = some r → Text.ShortRuns r.type := by
  cases hknown with
  | described hdescribed => exact h.readable listed known hlisted hdescribed
  | forgiven =>
    intro name _ r hr
    cases hr

end Backend

namespace Introspect
variable {b : Backend} {known known' : List (String × ReportedColumn)} {excluded listed asked asked' : List String}
  {table name : String} {names : Naming} {c c' : Column} {outcome outcome' : Except Fault (List Column)} {w : Workspace}

/-- The column that a listed name stands for: what is reported last of the name, or required text of any length. -/
structure Typed (known : List (String × ReportedColumn)) (excluded : List String) (name : String) (c : Column) :
    Prop where
  called : c.name = name
  leftOut : c.excluded = true ↔ name ∈ excluded
  reported : ∀ r, known.reverse.lookup name = some r →
    c.type = .ofRaw r.type ∧ c.nullable = r.nullable ∧ maxLength? r.type = .ok c.maxLength
  unknown : known.reverse.lookup name = none → c.type = .text ∧ c.nullable = false ∧ c.maxLength = none

theorem Typed.unique (h : Typed known excluded name c) (h' : Typed known excluded name c') : c = c' := by
  have hexcluded : c.excluded = c'.excluded := Bool.eq_iff_iff.2 (h.leftOut.trans h'.leftOut.symm)
  have hname : c.name = c'.name := h.called.trans h'.called.symm
  have hrest : c.type = c'.type ∧ c.nullable = c'.nullable ∧ c.maxLength = c'.maxLength := by
    cases hr : known.reverse.lookup name with
    | none =>
      obtain ⟨ht, hn, hl⟩ := h.unknown hr
      obtain ⟨ht', hn', hl'⟩ := h'.unknown hr
      exact ⟨ht.trans ht'.symm, hn.trans hn'.symm, hl.trans hl'.symm⟩
    | some r =>
      obtain ⟨ht, hn, hl⟩ := h.reported r hr
      obtain ⟨ht', hn', hl'⟩ := h'.reported r hr
      exact ⟨ht.trans ht'.symm, hn.trans hn'.symm, Except.ok.inj (hl.symm.trans hl')⟩
  cases c
  cases c'
  simp_all

theorem Typed.congr (h : Typed known excluded name c)
    (hknown : known'.reverse.lookup name = known.reverse.lookup name) : Typed known' excluded name c :=
  ⟨h.called, h.leftOut, fun r hr => h.reported r (hknown ▸ hr), fun hr => h.unknown (hknown ▸ hr)⟩

/-- How a lookup of columns ends, and which questions it has asked by then. -/
inductive Course (b : Backend) (excluded : List String) (table : String) :
    List String → Except Fault (List Column) → Prop
  | unreachable {reason : Option String} (h : b.hasTable table = .error (.unreachable reason)) :
      Course b excluded table ["has_table"] (.ok [])
  | absent (h : b.hasTable table = .ok false) : Course b excluded table ["has_table"] (.ok [])
  | undecided {fault : BackendFault} (h : b.hasTable table = .error fault)
      (hfault : ∀ reason, fault ≠ .unreachable reason) :
      Course b excluded table ["has_table"] (.error (.backend fault))
  | unlisted {fault : BackendFault} (there : b.hasTable table = .ok true) (h : b.columnNames table = .error fault) :
      Course b excluded table ["has_table", "column_names"] (.error (.backend fault))
  | undescribed {listed : List String} {fault : BackendFault} (there : b.hasTable table = .ok true)
      (names : b.columnNames table = .ok listed) (h : b.describe table = .error fault) (hfault : ¬ fault.Forgiven) :
      Course b excluded table ["has_table", "column_names", "describe_columns"] (.error (.backend fault))
  | found {listed : List String} {known : List (String × ReportedColumn)} {columns : List Column}
      (there : b.hasTable table = .ok true) (names : b.columnNames table = .ok listed) (h : b.Known table known)
      (typed : List.Forall₂ (Typed known excluded) listed columns) :
      Course b excluded table ["has_table", "column_names", "describe_columns"] (.ok columns)

theorem Typed.unique_all {columns columns' : List Column}
    (h : List.Forall₂ (Typed known excluded) listed columns)
    (h' : List.Forall₂ (Typed known excluded) listed columns') : columns = columns' := by
  induction h generalizing columns' with
  | nil => cases h'; rfl
  | cons hc _ ih =>
    cases h' with
    | cons hc' hcs' => rw [hc.unique hc', ih hcs']

theorem leavesTypesUnknown_iff (fault : BackendFault) : leavesTypesUnknown fault = true ↔ fault.Forgiven := by
  cases fault with
  | unreachable reason => exact iff_of_true rfl (.unreachable reason)
  | unsupported reason => exact iff_of_true rfl (.unsupported reason)
  | database cause => exact iff_of_true rfl (.database cause)
  | numberAsCollation => exact iff_of_false Bool.false_ne_true fun h => by cases h
  | defect reason => exact iff_of_false Bool.false_ne_true fun h => by cases h

/-- The answers of a backend leave no choice. -/
theorem Course.unique (h : Course b excluded table asked outcome) (h' : Course b excluded table asked' outcome') :
    asked = asked' ∧ outcome = outcome' := by
  -- two ends of different kinds name different answers to one question, save for a description that is forgiven or not
  cases h with
  | unreachable h => cases h' <;> simp_all
  | absent h => cases h' <;> simp_all
  | undecided h hfault =>
    cases h' with
    | unreachable h' => exact absurd (Except.error.inj (h.symm.trans h')) (hfault _)
    | _ => simp_all
  | unlisted there h => cases h' <;> simp_all
  | undescribed there names h hfault =>
    cases h' with
    | found _ _ h' => exact absurd (h'.forgiven_of_error h) hfault
    | _ => simp_all
  | found there names h typed =>
    cases h' with
    | undescribed _ _ h' hfault => exact absurd (h.forgiven_of_error h') hfault
    | found _ names' h' typed' =>
      cases names.symm.trans names'
      cases h.unique h'
      exact ⟨rfl, congrArg Except.ok (Typed.unique_all typed typed')⟩
    | _ => simp_all

theorem column_typed (excluded : List String) (hname : name ≠ "")
    (hshort : ∀ r, known.reverse.lookup name = some r → Text.ShortRuns r.type) :
    ∃ c, column known excluded name = .ok c ∧ Typed known excluded name c := by
  have hexcluded : excluded.contains name = true ↔ name ∈ excluded := List.contains_iff_mem
  cases hr : known.reverse.lookup name with
  | none =>
    refine ⟨_, by rw [column, hr]; exact Column.checked_eq_ok.2 ⟨hname, rfl⟩, rfl, hexcluded, fun r h => ?_,
      fun _ => ⟨rfl, rfl, rfl⟩⟩
    rw [hr] at h
    cases h
  | some r =>
    obtain ⟨size, hsize⟩ := maxLength?_of_shortRuns (hshort r hr)
    have htyped : column known excluded name =
        .ok ⟨name, .ofRaw r.type, r.nullable, size, excluded.contains name⟩ := by
      simp only [column, hr, Option.map_some, Column.ofRaw, hsize]
      exact Column.checked_eq_ok.2 ⟨hname, rfl⟩
    refine ⟨_, htyped, rfl, hexcluded, fun r' h => ?_, fun h => ?_⟩
    · rw [hr] at h
      cases h
      dsimp only
      exact ⟨rfl, rfl, hsize⟩
    · rw [hr] at h
      cases h

theorem mapM_typed (excluded : List String) (hnamed : "" ∉ listed)
    (hshort : ∀ name ∈ listed, ∀ r, known.reverse.lookup name = some r → Text.ShortRuns r.type) :
    ∃ columns, listed.mapM (column known excluded) = .ok columns ∧
      List.Forall₂ (Typed known excluded) listed columns := by
  induction listed with
  | nil => exact ⟨[], rfl, .nil⟩
  | cons name listed ih =>
    have hname : name ≠ "" := fun h => hnamed (h ▸ List.mem_cons_self ..)
    obtain ⟨c, hc, htyped⟩ := column_typed excluded hname (hshort name (List.mem_cons_self ..))
    obtain ⟨cs, hcs, hall⟩ := ih (fun h => hnamed (List.mem_cons_of_mem _ h))
      fun name h => hshort name (List.mem_cons_of_mem _ h)
    exact ⟨c :: cs, by rw [List.mapM_cons, hc, hcs]; rfl, .cons htyped hall⟩

/-- Looking up what is known of the columns asks one question, and fails only as the backend does. -/
theorem wp_metadata (b : Backend) (table : String) (w : Workspace) :
    wp (metadata b table)
      (fun known w' => b.Known table known ∧ w'.queries = ("describe_columns", table) :: w.queries)
      (fun f w' => (∃ fault, f = .backend fault ∧ b.describe table = .error fault ∧ ¬ fault.Forgiven) ∧
        w'.queries = ("describe_columns", table) :: w.queries) w := by
  unfold metadata
  rw [wp_bind, wp_ask]
  cases hd : b.describe table with
  | ok known => exact (wp_pure _).2 ⟨.described hd, rfl⟩
  | error fault =>
    simp only [wp_ite, wp_bind, wp_say, wp_pure, wp_throw]
    split
    · next hfault => exact ⟨.forgiven hd ((leavesTypesUnknown_iff fault).1 hfault), trivial⟩
    · next hfault => exact ⟨⟨fault, rfl, rfl, fun h => hfault ((leavesTypesUnknown_iff fault).2 h)⟩, trivial⟩

/-- The outcome is one that the answers lead to, and the questions were asked that lead there. -/
def Follows (b : Backend) (excluded : List String) (table : String) (w : Workspace)
    (outcome : Except Fault (List Column)) (w' : Workspace) : Prop :=
  ∃ asked, Course b excluded table asked outcome ∧ w'.queries = (asked.map (·, table)).reverse ++ w.queries

theorem wp_listed (h : b.Reports table) (there : b.hasTable table = .ok true) (w : Workspace) :
    wp (Introspect.listed b excluded table)
      (fun columns w' => Follows b excluded table w (.ok columns) w')
      (fun f w' => Follows b excluded table w (.error f) w')
      { w with queries := ("has_table", table) :: w.queries } := by
  unfold Introspect.listed
  rw [wp_bind, wp_ask]
  cases hlisted : b.columnNames table with
  | error fault => exact (wp_throw _).2 ⟨_, .unlisted there hlisted, rfl⟩
  | ok listed =>
    simp only
    rw [wp_bind]
    refine wp_mono (wp_metadata b table _) ?_ ?_
    · rintro known w₁ ⟨hknown, hqueries⟩
      obtain ⟨columns, hcolumns, htyped⟩ := mapM_typed excluded (h.named listed hlisted)
        (h.readable_of_known hlisted hknown)
      simp only [wp_bind, wp_ofExcept', hcolumns, wp_say, wp_pure]
      exact ⟨_, .found there hlisted hknown htyped, hqueries⟩
    · rintro f w₁ ⟨⟨fault, rfl, hdescribe, hfault⟩, hqueries⟩
      exact ⟨_, .undescribed there hlisted hdescribe hfault, hqueries⟩

theorem wp_answers (h : b.Reports names.table) (config : Config) (w : Workspace) :
    wp (answers config names b)
      (fun columns w' => Follows b config.database.excluded names.table w (.ok columns) w')
      (fun f w' => Follows b config.database.excluded names.table w (.error f) w') w := by
  unfold answers
  rw [wp_bind, wp_ask]
  cases hthere : b.hasTable names.table with
  | error fault =>
    cases fault with
    | unreachable reason =>
      simp only [wp_bind, wp_say, wp_pure]
      exact ⟨_, .unreachable hthere, rfl⟩
    | _ => exact (wp_throw _).2 ⟨_, .undecided hthere (fun _ hf => by cases hf), rfl⟩
  | ok there =>
    cases there with
    | false =>
      simp only [wp_bind, wp_say, wp_pure]
      exact ⟨_, .absent hthere, rfl⟩
    | true => exact wp_listed h hthere w

section Retold

theorem Typed.congr_all {columns : List Column} (h : List.Forall₂ (Typed known excluded) listed columns)
    (hknown : ∀ name ∈ listed, known'.reverse.lookup name = known.reverse.lookup name) :
    List.Forall₂ (Typed known' excluded) listed columns := by
  induction h with
  | nil => exact .nil
  | cons hc _ ih =>
    exact .cons (hc.congr (hknown _ (List.mem_cons_self ..)))
      (ih fun name hname => hknown name (List.mem_cons_of_mem _ hname))

/-- What is reported of other names than the listed ones makes no difference. -/
theorem Course.retold (h : Course b excluded table asked outcome) (hlisted : b.columnNames table = .ok listed)
    (hdescribe : b.describe table = .ok known)
    (hknown : ∀ name ∈ listed, known'.reverse.lookup name = known.reverse.lookup name) :
    Course { b with describe := fun _ => .ok known' } excluded table asked outcome := by
  cases h with
  | unreachable h => exact .unreachable h
  | absent h => exact .absent h
  | undecided h hfault => exact .undecided h hfault
  | unlisted _ h => cases hlisted.symm.trans h
  | undescribed _ _ h => cases hdescribe.symm.trans h
  | found there names h typed =>
    cases names.symm.trans hlisted
    cases h.unique (.described hdescribe)
    exact .found there hlisted (.described rfl) (Typed.congr_all typed hknown)

end Retold

end Introspect

theorem Backend.Reports.retold {b : Backend} {table : String} {listed : List String}
    {known known' : List (String × ReportedColumn)} (h : b.Reports table) (hlisted : b.columnNames table = .ok listed)
    (hdescribe : b.describe table = .ok known)
    (hknown : ∀ name ∈ listed, known'.reverse.lookup name = known.reverse.lookup name) :
    Reports { b with describe := fun _ => .ok known' } table where
  named := h.named
  readable := by
    rintro listed' _ hlisted' ⟨⟩ name hname r hr
    cases hlisted'.symm.trans hlisted
    exact h.readable listed known hlisted hdescribe name hname r (hknown name hname ▸ hr)

section Connect
variable {s : Storage} {b : Backend} {w w₁ : Workspace}

theorem Sqlite.queries_of_openFile {create : Bool} {l : Scaffold.Location} (h : openFile create l w = .ok b w₁) :
    w₁.queries = w.queries := by
  unfold openFile at h
  split at h
  · cases h; rfl
  · cases h; rfl
  · cases h; rfl
  · split at h <;> cases h <;> rfl

/-- To open a storage asks it nothing. -/
theorem Storage.queries_of_connect (h : s.connect w = .ok b w₁) : w₁.queries = w.queries := by
  cases s with
  | answers => cases h; rfl
  | sqlite location =>
    cases location with
    | memory => cases h; rfl
    | nowhere => cases h; rfl
    | file p create =>
      simp only [Storage.connect, Sqlite.connect] at h
      split at h
      · cases h; rfl
      · split at h
        · cases h; rfl
        · exact Sqlite.queries_of_openFile h

end Connect

namespace Introspect
variable {s : Storage} {b : Backend} {w w₁ : Workspace}

theorem follows_columns (config : Config) (names : Naming) (hconnect : s.connect w = .ok b w₁)
    (h : b.Reports names.table) :
    Follows b config.database.excluded names.table w (Action.ending (columns (some s) config names) w)
      (Action.after (columns (some s) config names) w) := by
  refine Action.wp_ending.1 ?_
  rw [columns_some, wp_bind, wp_ok hconnect]
  unfold Follows
  rw [← Storage.queries_of_connect hconnect]
  exact wp_answers h config w₁

/-- The lookup of columns follows the answers of a backend, whatever they are: there are no columns where it cannot be
reached or has no such table, a failure to list them is passed on, and else there is one column for each listed name,
typed by what is reported of the name. A failed description leaves the bare names or is passed on, and what is reported
of names that are not listed makes no difference. -/
theorem columns_policy (config : Config) (names : Naming) (hconnect : s.connect w = .ok b w₁)
    (h : b.Reports names.table) :
    Follows b config.database.excluded names.table w (Action.ending (columns (some s) config names) w)
        (Action.after (columns (some s) config names) w) ∧
      (∀ listed known known', b.columnNames names.table = .ok listed → b.describe names.table = .ok known →
        (∀ name ∈ listed, known'.reverse.lookup name = known.reverse.lookup name) →
          Action.ending (columns (some (.answers { b with describe := fun _ => .ok known' })) config names) w =
            Action.ending (columns (some s) config names) w) ∧
      Action.ending (columns none config names) w = .ok [] ∧
        (Action.after (columns none config names) w).queries = w.queries := by
  have hfollows := follows_columns config names hconnect h
  refine ⟨hfollows, fun listed known known' hlisted hdescribe hknown => ?_, rfl, rfl⟩
  obtain ⟨asked, hcourse, -⟩ := hfollows
  obtain ⟨asked', hcourse', -⟩ := follows_columns (s := .answers { b with describe := fun _ => .ok known' }) (w := w)
    config names rfl (h.retold hlisted hdescribe hknown)
  exact (hcourse'.unique (hcourse.retold hlisted hdescribe hknown)).2

/-- A backend that lists a name twice, knows the type of another one, and of one that it does not list. -/
def ledger : Backend where
  hasTable _ := .ok true
  columnNames _ := .ok ["note", "total", "note"]
  describe _ := .ok [("total", ⟨"decimal(10)", true⟩), ("ghost", ⟨"int", false⟩)]

theorem reports_ledger (table : String) : ledger.Reports table where
  named := by
    rintro _ ⟨⟩
    decide
  readable := by
    rintro _ _ ⟨⟩ ⟨⟩ name hname r hr
    rw [List.mem_cons, List.mem_pair] at hname
    rcases hname with rfl | rfl | rfl
    · cases hr
    · cases hr
      exact Text.shortRuns_of_length (by decide)
    · cases hr

/-- The columns of the ledger, one of them left out, are the same without the type of a column that is not listed. -/
theorem columns_policy_ledger :
    let w := Workspace.start ⟨[], []⟩
    let config : Config := { database := { excluded := ["total"] } }
    let columns : List Column := [{ name := "note" },
      { name := "total", type := .float, nullable := true, maxLength := some 10, excluded := true }, { name := "note" }]
    ∃ names, Naming.derive? "Order" = some names ∧ (Storage.answers ledger).connect w = .ok ledger w ∧
      ledger.Reports names.table ∧
        Follows ledger ["total"] names.table w (.ok columns)
          (Action.after (Introspect.columns (some (.answers ledger)) config names) w) ∧
        ledger.columnNames names.table = .ok ["note", "total", "note"] ∧
        Action.ending (Introspect.columns (some (.answers
          { ledger with describe := fun _ => .ok [("total", ⟨"decimal(10)", true⟩)] })) config names) w =
            .ok columns ∧
        Action.ending (Introspect.columns none config names) w = .ok [] ∧
          (Action.after (Introspect.columns none config names) w).queries = [] := by
  intro w config columns
  obtain ⟨names, hnames⟩ : ∃ names, Naming.derive? "Order" = some names := ⟨_, rfl⟩
  have hreports := reports_ledger names.table
  have hends : Action.ending (Introspect.columns (some (.answers ledger)) config names) w = .ok columns := rfl
  obtain ⟨hfollows, hretold, hnone⟩ :=
    columns_policy (s := .answers ledger) (b := ledger) (w := w) config names rfl hreports
  rw [hends] at hfollows hretold
  refine ⟨names, hnames, rfl, hreports, hfollows, rfl, hretold _ _ _ rfl rfl fun name hname => ?_, hnone⟩
  rw [List.mem_cons, List.mem_pair] at hname
  rcases hname with rfl | rfl | rfl <;> rfl

end Introspect

end Scaffold
