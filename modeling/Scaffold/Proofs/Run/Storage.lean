import Scaffold.Generator
import Scaffold.Proofs.Tree.Walk
import Scaffold.Proofs.Wp

/-!
# Asking a storage

The columns of a table depend on the answers of the backend alone (`Introspect.columns_some`), and a run
gets its backend from `Generator.storage?`. To open a database may make an empty file, the only thing
that looking up columns ever does to the tree (`Introspect.wp_columns`).
-/

namespace Scaffold

namespace Introspect
variable {α : Type}

theorem ask_blind {question : String} {query : String → Except BackendFault α} {table : String} :
    Blind (ask question query table) :=
  Blind.bind (.modify fun _ => ⟨by rfl, by rfl⟩) fun _ => .pure _

theorem metadata_blind (backend : Backend) (table : String) : Blind (metadata backend table) := by
  unfold metadata
  refine ask_blind.bind fun known => ?_
  cases known with
  | ok known => exact .pure known
  | error fault =>
    simp only
    split
    · exact Blind.bind .say fun _ => .pure _
    · exact .throw _

theorem listed_blind (backend : Backend) (excluded : List String) (table : String) :
    Blind (listed backend excluded table) := by
  unfold listed
  refine ask_blind.bind fun names => ?_
  cases names with
  | error fault => exact .throw _
  | ok names =>
    exact (metadata_blind backend table).bind fun known => (Blind.ofExcept _).bind fun _ =>
      Blind.bind .say fun _ => .pure _

/-- What is asked of a backend once there is one. -/
def answers (config : Config) (names : Naming) (backend : Backend) : Action (List Column) := do
  match ← ask "has_table" backend.hasTable names.table with
  | .error (.unreachable reason) =>
    let fault := BackendFault.unreachable reason
    Action.say .warning source <|
      s!"Storage backend unreachable ({fault.message}); using default fields for " ++
        s!"{names.one.pascal}."
    pure []
  | .error fault => throw (.backend fault)
  | .ok false =>
    Action.say .info source s!"Table '{names.table}' not found; using default fields."
    pure []
  | .ok true => listed backend config.database.excluded names.table

theorem columns_some (storage : Storage) (config : Config) (names : Naming) :
    columns (some storage) config names = storage.connect >>= answers config names := rfl

theorem answers_blind (config : Config) (names : Naming) (backend : Backend) :
    Blind (answers config names backend) := by
  unfold answers
  refine ask_blind.bind fun answer => ?_
  rcases answer with fault | there
  · cases fault <;> first | exact .throw _ | exact Blind.bind .say fun _ => .pure _
  · cases there with
    | true => exact listed_blind ..
    | false => exact Blind.bind .say fun _ => .pure _

/-- With a backend that is there already, or none, nothing is opened to look up columns. -/
theorem columns_blind (backend : Option Backend) (config : Config) (names : Naming) :
    Blind (columns (backend.map .answers) config names) := by
  cases backend with
  | none => exact Blind.bind .say fun _ => .pure []
  | some backend => exact Blind.bind (.pure _) fun _ => answers_blind ..

end Introspect

namespace Sqlite

/-- Opening a file never fails, and makes nothing but the file. -/
theorem openFile_cases (create : Bool) (l : Scaffold.Location) (w : Workspace) :
    ∃ backend w', openFile create l w = .ok backend w' ∧ w'.cache = w.cache ∧
      (w'.tree = w.tree ∨ create = true ∧ w.tree.entryAt l = none ∧
        w'.tree = w.tree.place l (.file Edit.newFileMode .empty)) := by
  unfold openFile
  split
  · exact ⟨_, _, rfl, rfl, .inl rfl⟩
  · exact ⟨_, _, rfl, rfl, .inl rfl⟩
  · exact ⟨_, _, rfl, rfl, .inl rfl⟩
  · next hl _ =>
    split
    · next hc => exact ⟨_, _, rfl, rfl, .inr ⟨hc, hl, rfl⟩⟩
    · exact ⟨_, _, rfl, rfl, .inl rfl⟩

theorem connect_cases (p : Path) (create : Bool) (w : Workspace) :
    ∃ backend w', connect (.file p create) w = .ok backend w' ∧ w'.cache = w.cache ∧
      (w'.tree = w.tree ∨ create = true ∧ ∃ l, w.tree.locate (p.resolved w.tree.home) = .ok l ∧
        w.tree.entryAt l = none ∧ w'.tree = w.tree.place l (.file Edit.newFileMode .empty)) := by
  simp only [connect]
  split
  · exact ⟨_, _, rfl, rfl, .inl rfl⟩
  · split
    · exact ⟨_, _, rfl, rfl, .inl rfl⟩
    · next l hl =>
      obtain ⟨backend, w', hopen, hcache, h | ⟨hc, hn, ht⟩⟩ := openFile_cases create l w
      · exact ⟨backend, w', hopen, hcache, .inl h⟩
      · exact ⟨backend, w', hopen, hcache, .inr ⟨hc, l, hl, hn, ht⟩⟩

variable {p : Path} {create : Bool} {l : Scaffold.Location} {w w₁ w₂ : Workspace} {backend : Backend}

/-- No database was taken away while it was open. -/
def NoneHeld (w : Workspace) : Prop :=
  ∀ l backend, w.opened.lookup l ≠ some (some backend)

theorem openFile_eq (h : NoneHeld w) (create : Bool) (l : Scaffold.Location) :
    openFile create l w = match w.tree.entryAt l with
      | some .directory => .ok unopenable w
      | some (.file _ bytes) => .ok (contents w l bytes) { w with opened := (l, none) :: w.opened }
      | none => if create then
          .ok (ofTables [])
            { w with tree := w.tree.place l (.file Edit.newFileMode .empty)
                     opened := (l, none) :: w.opened }
        else .ok unopenable w := by
  unfold openFile
  cases ho : w.opened.lookup l with
  | none => cases w.tree.entryAt l with
    | none => rfl
    | some e => cases e <;> rfl
  | some held => cases held with
    | some backend => exact absurd ho (h l backend)
    | none => cases w.tree.entryAt l with
      | none => rfl
      | some e => cases e <;> rfl

theorem contents_congr (h : w₂.databases = w.databases) (l : Scaffold.Location) (bytes : ByteArray) :
    contents w₂ l bytes = contents w l bytes := by
  unfold contents
  rw [h]

/-- A database file that was opened in `w`, which led to `w₁`, is the same in `w₂`. -/
structure Reopens (p : Path) (w w₁ w₂ : Workspace) : Prop where
  held : NoneHeld w ∧ NoneHeld w₂
  grows : w.tree.Grows w₂.tree
  databases : w₂.databases = w.databases
  file : ∃ l, w.tree.locate (p.resolved w.tree.home) = .ok l ∧
    ∀ mode bytes, w₂.tree.entryAt l = some (.file mode bytes) ↔ w₁.tree.entryAt l = some (.file mode bytes)

theorem openFile_again (hr : NoneHeld w ∧ NoneHeld w₂) (hgrows : w.tree.Grows w₂.tree)
    (hdatabases : w₂.databases = w.databases)
    (hfile : ∀ mode bytes, w₂.tree.entryAt l = some (.file mode bytes) ↔
      w₁.tree.entryAt l = some (.file mode bytes))
    (h : openFile create l w = .ok backend w₁) :
    ∃ w₂', openFile create l w₂ = .ok backend w₂' ∧ w₂'.tree = w₂.tree := by
  rw [openFile_eq hr.1] at h
  rw [openFile_eq hr.2]
  cases he : w.tree.entryAt l with
  | some e =>
    rw [he] at h
    cases e with
    | directory =>
      cases h
      rw [hgrows.directory l he]
      exact ⟨w₂, rfl, rfl⟩
    | file mode bytes =>
      cases h
      rw [(hfile mode bytes).2 he, ← contents_congr hdatabases]
      exact ⟨_, rfl, rfl⟩
  | none =>
    rw [he] at h
    cases create with
    | true =>
      cases h
      -- the empty file that the first opening made is an empty database
      have hnew := (hfile Edit.newFileMode .empty).2 (by rw [Tree.entryAt_place_new he, if_pos rfl])
      rw [hnew]
      exact ⟨_, rfl, rfl⟩
    | false =>
      cases h
      cases he₂ : w₂.tree.entryAt l with
      | none => exact ⟨w₂, rfl, rfl⟩
      | some e => cases e with
        | directory => exact ⟨w₂, rfl, rfl⟩
        | file mode bytes =>
          have hold := (hfile mode bytes).1 he₂
          rw [he] at hold
          cases hold

theorem connect_again (hr : Reopens p w w₁ w₂) (h : connect (.file p create) w = .ok backend w₁) :
    ∃ w₂', connect (.file p create) w₂ = .ok backend w₂' ∧ w₂'.tree = w₂.tree := by
  obtain ⟨l, hl, hfile⟩ := hr.file
  simp only [connect, hr.grows.home] at h ⊢
  by_cases hn : Tree.hasNull (p.resolved w.tree.home) = true
  · simp only [hn, ↓reduceIte] at h ⊢
    cases h
    exact ⟨w₂, rfl, rfl⟩
  · simp only [hn, Bool.false_eq_true, ↓reduceIte, hl, hr.grows.locate hl] at h ⊢
    exact openFile_again hr.held hr.grows hr.databases hfile h

end Sqlite

section Again
variable {storage : Storage} {w w₁ w₂ : Workspace}

theorem Storage.connect_again {backend : Backend}
    (hr : ∀ p create, storage = .sqlite (.file p create) → Sqlite.Reopens p w w₁ w₂)
    (h : storage.connect w = .ok backend w₁) :
    ∃ w₂', storage.connect w₂ = .ok backend w₂' ∧ w₂'.tree = w₂.tree := by
  cases storage with
  | answers backend =>
    cases h
    exact ⟨w₂, rfl, rfl⟩
  | sqlite location => cases location with
    | memory =>
      cases h
      exact ⟨w₂, rfl, rfl⟩
    | nowhere =>
      cases h
      exact ⟨w₂, rfl, rfl⟩
    | file p create => exact Sqlite.connect_again (hr p create rfl) h

theorem Introspect.columns_again {storage : Option Storage} {config : Config} {names : Naming}
    {columns : List Column} (h : Introspect.columns storage config names w = .ok columns w₁)
    (hr : ∀ p create, storage = some (.sqlite (.file p create)) → Sqlite.Reopens p w w₁ w₂) :
    ∃ w₂', Introspect.columns storage config names w₂ = .ok columns w₂' ∧ w₂'.tree = w₂.tree := by
  cases storage with
  | none =>
    cases h
    exact ⟨_, rfl, rfl⟩
  | some storage =>
    rw [columns_some] at h ⊢
    simp only [bind, EStateM.bind] at h ⊢
    cases hc : storage.connect w with
    | error f w' => rw [hc] at h; cases h
    | ok backend w' =>
      rw [hc] at h
      obtain ⟨hsame, hagain⟩ := (answers_blind config names backend).again h
      have hr' : ∀ p create, storage = .sqlite (.file p create) → Sqlite.Reopens p w w' w₂ := by
        rintro p create rfl
        obtain ⟨hheld, hgrows, hdatabases, l, hl, hfile⟩ := hr p create rfl
        exact ⟨hheld, hgrows, hdatabases, l, hl, hsame.1 ▸ hfile⟩
      obtain ⟨w₃, hc₂, ht₂⟩ := Storage.connect_again hr' hc
      obtain ⟨w₄, ha₂, hsame₂⟩ := hagain w₃
      exact ⟨w₄, by rw [hc₂]; exact ha₂, hsame₂.1.trans ht₂⟩

end Again

/-- The location of the database file that a storage makes where it does not stand. -/
def Storage.file? (home : Location) : Storage → Option Location
  | .sqlite (.file p true) => some ((p.resolved home).resolveFrom home)
  | _ => none

/-- What opening a database has done: nothing to the tree, or it has made an empty file. -/
inductive Tree.Opened (file? : Option Location) (t : Tree) : Tree → Prop where
  | kept : Opened file? t t
  | made {l : Location} (file : file? = some l) (new : t.entryAt l = none) :
      Opened file? t (t.place l (.file Edit.newFileMode .empty))

theorem Storage.wp_connect (storage : Storage) (w : Workspace) :
    wp storage.connect
      (fun _ w' => w'.cache = w.cache ∧ w.tree.Opened (storage.file? w.tree.home) w'.tree)
      (fun _ _ => False) w := by
  cases storage with
  | answers backend => exact (wp_pure _).2 ⟨rfl, .kept⟩
  | sqlite location =>
    cases location with
    | memory => exact (wp_pure _).2 ⟨rfl, .kept⟩
    | nowhere => exact (wp_pure _).2 ⟨rfl, .kept⟩
    | file p create =>
      obtain ⟨backend, w', hconnect, hcache, h | ⟨rfl, l, hl, hn, ht⟩⟩ := Sqlite.connect_cases p create w
      · exact (wp_ok hconnect).2 ⟨hcache, h ▸ .kept⟩
      · refine (wp_ok hconnect).2 ⟨hcache, ht ▸ .made ?_ hn⟩
        rw [Storage.file?, Tree.locate_eq hl]

/-- However the columns are looked up, nothing is done to the tree but to open the database. -/
theorem Introspect.wp_columns (storage : Option Storage) (config : Config) (names : Naming) (w : Workspace) :
    wp (columns storage config names)
      (fun _ w' => w'.cache = w.cache ∧ w.tree.Opened (storage.bind (·.file? w.tree.home)) w'.tree)
      (fun _ w' => w'.cache = w.cache ∧ w.tree.Opened (storage.bind (·.file? w.tree.home)) w'.tree) w := by
  cases storage with
  | none =>
    unfold columns
    simp only [wp_bind, wp_say, wp_pure]
    exact ⟨trivial, .kept⟩
  | some storage =>
    rw [columns_some, wp_bind]
    refine wp_mono (storage.wp_connect w) (fun backend w₁ h₁ => ?_) fun _ _ h => h.elim
    exact ((answers_blind config names backend).keeps
      (I := fun w' => w'.cache = w.cache ∧ w.tree.Opened (storage.file? w.tree.home) w'.tree)
      fun w₂ w₃ hs h => ⟨hs.2.trans h.1, hs.1 ▸ h.2⟩).wp w₁ h₁

/-- The fault is not that of an artifact without a place or a template. -/
def Fault.Supported (f : Fault) : Prop :=
  ∀ category kind, f ≠ .unsupportedArtifact category kind

section Faults
variable {α : Type} {w : Workspace} {f : Fault}

theorem Column.checked_error {column : Column} (h : column.checked = .error f) : f.Supported := by
  unfold Column.checked at h
  split at h <;> cases h
  intro _ _ hf
  cases hf

theorem Column.ofRaw_error {name : String} {raw : Option String} {nullable excluded : Bool}
    (h : Column.ofRaw name raw nullable excluded = .error f) : f.Supported := by
  unfold Column.ofRaw at h
  cases raw with
  | none => exact checked_error h
  | some raw =>
    simp only [bind, Except.bind] at h
    cases hlength : maxLength? raw with
    | ok length => rw [hlength] at h; exact checked_error h
    | error f' =>
      rw [hlength] at h
      cases h
      unfold maxLength? at hlength
      split at hlength
      · cases hlength
      · split at hlength <;> cases hlength
        intro _ _ hf
        cases hf

theorem mapM_error {β ε : Type} {g : α → Except ε β} {as : List α} {e : ε} (h : as.mapM g = .error e) :
    ∃ a ∈ as, g a = .error e := by
  induction as with
  | nil => cases h
  | cons a as ih =>
    rw [List.mapM_cons] at h
    cases ha : g a with
    | error e' =>
      rw [ha] at h
      cases h
      exact ⟨a, List.mem_cons_self .., ha⟩
    | ok b =>
      simp only [ha, bind, Except.bind] at h
      cases has : as.mapM g with
      | ok bs => rw [has] at h; cases h
      | error e' =>
        rw [has] at h
        cases h
        obtain ⟨a', hmem, ha'⟩ := ih has
        exact ⟨a', List.mem_cons_of_mem _ hmem, ha'⟩

namespace Introspect

theorem wp_ask {Q : Except BackendFault α → Workspace → Prop} {E : Fault → Workspace → Prop}
    (question : String) (query : String → Except BackendFault α) (table : String) :
    wp (ask question query table) Q E w ↔
      Q (query table) { w with queries := (question, table) :: w.queries } := by
  unfold ask
  rw [wp_bind, wp_modify, wp_pure]

theorem backend_supported (fault : BackendFault) : (Fault.backend fault).Supported :=
  fun _ _ h => by cases h

theorem wp_metadata_faults (backend : Backend) (table : String) (w : Workspace) :
    wp (metadata backend table) (fun _ _ => True) (fun f _ => f.Supported) w := by
  unfold metadata
  rw [wp_bind, wp_ask]
  cases backend.describe table with
  | ok known => exact (wp_pure _).2 trivial
  | error fault =>
    simp only [wp_ite, wp_bind, wp_say, wp_pure, wp_throw]
    split
    · trivial
    · exact backend_supported fault

theorem wp_listed_faults (backend : Backend) (excluded : List String) (table : String) (w : Workspace) :
    wp (listed backend excluded table) (fun _ _ => True) (fun f _ => f.Supported) w := by
  unfold listed
  rw [wp_bind, wp_ask]
  cases backend.columnNames table with
  | error fault => exact (wp_throw _).2 (backend_supported fault)
  | ok names =>
    simp only
    rw [wp_bind]
    refine wp_mono (wp_metadata_faults ..) (fun known w₁ _ => ?_) fun _ _ h => h
    rw [wp_bind, wp_ofExcept']
    cases hcolumns : names.mapM (column known excluded) with
    | ok columns => simp only [wp_bind, wp_say, wp_pure]
    | error f =>
      obtain ⟨name, -, hname⟩ := mapM_error hcolumns
      exact Column.ofRaw_error hname

theorem wp_answers_faults (config : Config) (names : Naming) (backend : Backend) (w : Workspace) :
    wp (answers config names backend) (fun _ _ => True) (fun f _ => f.Supported) w := by
  unfold answers
  rw [wp_bind, wp_ask]
  rcases backend.hasTable names.table with fault | there
  · cases fault with
    | unreachable reason => simp only [wp_bind, wp_say, wp_pure]
    | _ => exact (wp_throw _).2 (backend_supported _)
  · cases there with
    | true => exact wp_listed_faults ..
    | false => simp only [wp_bind, wp_say, wp_pure]

theorem wp_columns_faults (storage : Option Storage) (config : Config) (names : Naming) (w : Workspace) :
    wp (columns storage config names) (fun _ _ => True) (fun f _ => f.Supported) w := by
  cases storage with
  | none =>
    unfold columns
    simp only [wp_bind, wp_say, wp_pure]
  | some storage =>
    rw [columns_some, wp_bind]
    exact wp_mono (storage.wp_connect w) (fun backend w₁ _ => wp_answers_faults ..) fun _ _ h => h.elim

end Introspect

end Faults

/-- The storage that a generator asks. -/
def Generator.storage? (g : Generator) : Option Storage :=
  match g.storage, g.config.databaseUrl with
  | some storage, _ => some storage
  | none, none => none
  | none, some url =>
    if url.isEmpty then none
    else match Sqlite.locate url with
      | .ok location => some (.sqlite location)
      | .error _ => none

theorem Generator.storageOf_eq (g : Generator) (w : Workspace) :
    ∃ log, g.storageOf w = .ok g.storage? { w with log := log } := by
  unfold Generator.storageOf Generator.storage?
  cases g.storage with
  | some storage => exact ⟨w.log, rfl⟩
  | none =>
    cases g.config.databaseUrl with
    | none => exact ⟨w.log, rfl⟩
    | some url =>
      simp only
      split
      · exact ⟨w.log, rfl⟩
      · cases Sqlite.locate url with
        | ok location => exact ⟨w.log, rfl⟩
        | error fault => exact ⟨_, rfl⟩

end Scaffold
