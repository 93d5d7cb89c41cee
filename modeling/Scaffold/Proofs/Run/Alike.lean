import Scaffold.Proofs.Run.Outcome
import Scaffold.Proofs.Text.ReadBack

/-!
# Runs that remember different templates

A generator that has read a template does not read it again, so what it does might depend on what it did before. It
does not where the route files and the template ids are the usual ones (`artifact_alike`): all that is ever written
ends in `.php` and all templates end in `.stub` (`Path.Ends.apart`), so what is remembered of a template stays what
its file says (`Truthful`).
-/

namespace Scaffold

namespace Path
variable {p q : Path} {s ext ext' : String} {home : Location}

/-- The last component of the path ends in `ext`. -/
def Ends (p : Path) (ext : String) : Prop :=
  ∃ name, p.parts.getLast? = some name ∧ ext.toList <:+ name.toList

/-- An ending that a file name can have, and neither `.` nor `..`. -/
structure Extension (ext : String) : Prop where
  noSlash : '/' ∉ ext.toList
  long : 2 < ext.toList.length

theorem extension_stub : Extension ".stub" := ⟨by decide, by decide⟩

theorem extension_php : Extension ".php" := ⟨by decide, by decide⟩

theorem Extension.ne (h : Extension ext) {name : String} (hname : ext.toList <:+ name.toList) :
    name ≠ "" ∧ name ≠ "." ∧ name ≠ ".." := by
  have hlong := Nat.lt_of_lt_of_le h.long hname.length_le
  refine ⟨?_, ?_, ?_⟩ <;> rintro rfl <;> exact absurd hlong (by decide)

theorem suffix_last_piece {sep : Char} {tail cs : List Char} (hsep : sep ∉ tail) (h : tail <:+ cs) :
    ∃ pieces last, Text.splitAtChar sep cs = pieces ++ [last] ∧ tail <:+ last := by
  induction cs using Text.split_induction sep with
  | last cs hcs => exact ⟨[], cs, Text.splitAtChar_of_notMem hcs, h⟩
  | cut as bs has ih =>
    have htail : tail <:+ bs := by
      rcases List.suffix_or_suffix_of_suffix h (List.suffix_append as (sep :: bs)) with hshort | hlong
      · rcases List.suffix_cons_iff.1 hshort with rfl | htail
        · exact absurd (List.mem_cons_self ..) hsep
        · exact htail
      · exact absurd (hlong.subset (List.mem_cons_self ..)) hsep
    obtain ⟨pieces, last, hpieces, hlast⟩ := ih htail
    exact ⟨as :: pieces, last, by rw [Text.splitAtChar_append, Text.splitAtChar_of_notMem has, hpieces]; rfl, hlast⟩

theorem ends_ofString (hext : Extension ext) (h : ext.toList <:+ s.toList) : (ofString s).Ends ext := by
  obtain ⟨pieces, last, hpieces, hlast⟩ := suffix_last_piece hext.noSlash h
  rw [← String.toList_ofList (l := last)] at hlast
  obtain ⟨hempty, hdot, -⟩ := hext.ne hlast
  refine ⟨.ofList last, ?_, hlast⟩
  simp [ofString, hpieces, hempty, hdot]

theorem ends_join (hext : Extension ext) (p : Path) (h : ext.toList <:+ s.toList) : (p / s).Ends ext := by
  obtain ⟨name, hlast, hname⟩ := ends_ofString hext h
  refine ⟨name, ?_, hname⟩
  show (p.append (ofString s)).parts.getLast? = some name
  unfold append
  split
  · exact hlast
  · rw [List.getLast?_append, hlast]
    rfl

theorem Ends.resolve (hext : Extension ext) (h : p.Ends ext) (home : Location) :
    ∃ name, (p.resolveFrom home).getLast? = some name ∧ ext.toList <:+ name.toList := by
  obtain ⟨name, hlast, hname⟩ := h
  obtain ⟨above, habove⟩ := List.getLast?_eq_some_iff.1 hlast
  refine ⟨name, ?_, hname⟩
  rw [resolveFrom, habove, List.foldl_append]
  simp [(hext.ne hname).2.2]

/-- A template is never where a PHP file is. -/
theorem Ends.apart (hp : p.Ends ".stub") (hq : q.Ends ".php") (home : Location) :
    p.resolveFrom home ≠ q.resolveFrom home := by
  obtain ⟨name, hlast, hname⟩ := hp.resolve extension_stub home
  obtain ⟨name', hlast', hname'⟩ := hq.resolve extension_php home
  intro heq
  rw [heq, hlast'] at hlast
  cases hlast
  rcases List.suffix_or_suffix_of_suffix hname hname' with h | h
  · exact absurd h (by decide)
  · exact absurd h (by decide)

end Path

namespace Layout
variable {config : Config} {names : Naming} {version id : String} {c : Category} {k : Kind} {v : Option String}
  {p : Path}

theorem suffix_intercalate {sep last : List Char} (ls : List (List Char)) :
    last <:+ sep.intercalate (ls ++ [last]) := by
  induction ls with
  | nil => simp
  | cons l ls ih =>
    obtain ⟨next, rest, h⟩ :=
      List.exists_cons_of_ne_nil (List.append_ne_nil_of_right_ne_nil ls (List.cons_ne_nil last []))
    rw [List.cons_append, h, List.intercalate_cons_cons, ← h]
    exact ih.trans (List.suffix_append ..)

theorem suffix_file (place : ClassPlace) (model version : String) :
    ".php".toList <:+ (place.file model version).toList := by
  rw [ClassPlace.file, String.toList_intercalate, List.map_append]
  refine List.IsSuffix.trans ?_ (suffix_intercalate _)
  rw [String.toList_append]
  exact List.suffix_append ..

theorem ends_of_mem_files (hpaths : config.paths = {}) (hp : p ∈ files config names version c k) : p.Ends ".php" := by
  unfold files at hp
  split at hp
  · cases hp
  · next t ht =>
    split at hp
    · obtain ⟨v, -, rfl⟩ := List.mem_map.1 hp
      refine Path.ends_join Path.extension_php _ ?_
      rw [String.toList_append]
      exact List.IsSuffix.trans (by decide) (List.suffix_append ..)
    · next hk =>
      rw [List.mem_singleton.1 hp]
      rw [target?, if_neg (by simp [hk])] at ht
      obtain ⟨place, -, rfl⟩ := Option.map_eq_some_iff.1 ht
      simp only
      split
      · rw [routeFile, hpaths]
        refine Path.ends_join Path.extension_php _ ?_
        split <;> decide
      · exact Path.ends_join Path.extension_php _ (suffix_file ..)

theorem suffix_templateId (hstubs : config.stubs = {}) (h : templateId config c k v = .ok id) :
    ".stub".toList <:+ id.toList := by
  have husual : ∀ a ∈ templateIds config c, ".stub".toList <:+ a.2.toList := by
    unfold templateIds
    rw [hstubs]
    cases c <;> decide
  unfold templateId at h
  split at h
  · simp only at h
    split at h
    · next hlookup =>
      cases h
      obtain ⟨before, behind, heq, -⟩ := List.lookup_eq_some_iff.1 hlookup
      exact husual (templateKey k v, id) (by rw [heq]; simp)
    · cases h
  · cases h

end Layout

/-- What is remembered of templates is what their files say. -/
def Truthful (w : Workspace) : Prop :=
  ∀ q text, w.cache.lookup q = some text → q.Ends ".stub" ∧ w.tree.readText q = .ok text

/-- The files are the same in both, and both remember only what is true. -/
structure Agree (w v : Workspace) : Prop where
  tree : v.tree = w.tree
  left : Truthful w
  right : Truthful v

/-- Two ends of an action that differ in nothing but what is remembered of templates, logged and recorded. -/
inductive Tally {α : Type} : EStateM.Result Fault Workspace α → EStateM.Result Fault Workspace α → Prop where
  | ok {a : α} {w v : Workspace} (agree : Agree w v) : Tally (.ok a w) (.ok a v)
  | error {f : Fault} {w v : Workspace} (agree : Agree w v) : Tally (.error f w) (.error f v)

/-- It does not matter for `x` which templates are remembered. -/
structure Alike {α : Type} (x : Action α) : Prop where
  tally : ∀ w v, Agree w v → Tally (x w) (x v)

namespace Agree
variable {w v : Workspace}

theorem of_same {w' v' : Workspace} (h : Agree w v) (hw : Same w w') (hv : Same v v') : Agree w' v' where
  tree := by rw [hw.1, hv.1, h.tree]
  left q text hq := by rw [hw.1]; exact h.left q text (hw.2 ▸ hq)
  right q text hq := by rw [hv.1]; exact h.right q text (hv.2 ▸ hq)

theorem of_tree {t : Tree} (h : Agree w v)
    (ht : ∀ q text, q.Ends ".stub" → w.tree.readText q = .ok text → t.readText q = .ok text) :
    Agree { w with tree := t } { v with tree := t } where
  tree := rfl
  left q text hq := ⟨(h.left q text hq).1, ht q text (h.left q text hq).1 (h.left q text hq).2⟩
  right q text hq := ⟨(h.right q text hq).1, ht q text (h.right q text hq).1 (h.tree ▸ (h.right q text hq).2)⟩

end Agree

namespace Alike
variable {α β : Type} {x : Action α} {f : α → Action β}

theorem pure (a : α) : Alike (pure a) := ⟨fun _ _ h => .ok h⟩

theorem throw (fault : Fault) : Alike (throw fault : Action α) := ⟨fun _ _ h => .error h⟩

theorem bind_of {P : α → Prop} (hx : Alike x) (hP : ∀ w a w', x w = .ok a w' → P a) (hf : ∀ a, P a → Alike (f a)) :
    Alike (x >>= f) := by
  refine ⟨fun w v h => ?_⟩
  have hends := hx.tally w v h
  simp only [Bind.bind, EStateM.bind]
  cases hw : x w with
  | ok a w' =>
    rw [hw] at hends
    cases hv : x v with
    | ok b v' =>
      rw [hv] at hends
      cases hends with
      | ok agree => exact (hf a (hP w a w' hw)).tally w' v' agree
    | error f' v' => rw [hv] at hends; cases hends
  | error f' w' =>
    rw [hw] at hends
    cases hv : x v with
    | ok b v' => rw [hv] at hends; cases hends
    | error f'' v' =>
      rw [hv] at hends
      cases hends with
      | error agree => exact .error agree

theorem bind (hx : Alike x) (hf : ∀ a, Alike (f a)) : Alike (x >>= f) :=
  hx.bind_of (P := fun _ => True) (fun _ _ _ _ => trivial) fun a _ => hf a

theorem modify {g : Workspace → Workspace} (hg : ∀ w, Same w (g w)) : Alike (modify g : Action PUnit) :=
  ⟨fun w v h => .ok (h.of_same (hg w) (hg v))⟩

theorem say {level : LogLevel} {source message : String} : Alike (Action.say level source message) :=
  .modify fun _ => ⟨rfl, rfl⟩

/-- What `x` ends in can be read off the files. -/
theorem of_reads {g : Tree → Except Fault α}
    (h : ∀ w, Truthful w → wp x (fun a w' => g w.tree = .ok a ∧ w'.tree = w.tree ∧ Truthful w')
      (fun fault w' => g w.tree = .error fault ∧ w'.tree = w.tree ∧ Truthful w') w) : Alike x := by
  refine ⟨fun w v hagree => ?_⟩
  have hleft := h w hagree.left
  have hright := h v hagree.right
  rw [hagree.tree] at hright
  cases hw : x w with
  | ok a w' =>
    obtain ⟨hread, htree, hw'⟩ := (wp_ok hw).1 hleft
    rw [hread] at hright
    cases hv : x v with
    | ok b v' =>
      obtain ⟨hsame, htree', hv'⟩ := (wp_ok hv).1 hright
      cases hsame
      exact .ok ⟨htree'.trans htree.symm, hw', hv'⟩
    | error fault v' => cases ((wp_error hv).1 hright).1
  | error fault w' =>
    obtain ⟨hread, htree, hw'⟩ := (wp_error hw).1 hleft
    rw [hread] at hright
    cases hv : x v with
    | ok b v' => cases ((wp_ok hv).1 hright).1
    | error fault' v' =>
      obtain ⟨hsame, htree', hv'⟩ := (wp_error hv).1 hright
      cases hsame
      exact .error ⟨htree'.trans htree.symm, hw', hv'⟩

theorem look (g : Tree → Except Fault α) : Alike (Action.look g) := by
  refine .of_reads (g := g) fun w hw => ?_
  rw [wp_look]
  cases g w.tree with
  | ok a => exact ⟨rfl, rfl, hw⟩
  | error fault => exact ⟨rfl, rfl, hw⟩

theorem bind_ofExcept {r : Except Fault α} (hf : ∀ a, r = .ok a → Alike (f a)) : Alike (Action.ofExcept r >>= f) := by
  cases r with
  | ok a => exact hf a rfl
  | error fault => exact ⟨fun w v h => .error h⟩

/-- To replace a file that is no template changes no template. -/
theorem replaceFile {p : Path} (hp : p.Ends ".php") (text : String) :
    Alike (Action.edit (Edit.replaceFile p text)) := by
  refine ⟨fun w v h => ?_⟩
  have hframe : ∀ {t}, Frame w.tree (· = p.resolveFrom w.tree.home) (fun _ => True) t → ∀ q text, q.Ends ".stub" →
      w.tree.readText q = .ok text → t.readText q = .ok text :=
    fun hframe q _ hq hread => hframe.readText (hq.apart hp _) hread
  have hwrite := Edit.wp_replaceFile p text w.tree
  unfold Action.edit
  rw [h.tree]
  cases he : Edit.replaceFile p text w.tree with
  | ok record t =>
    have hreplaced := (wp_ok he).1 hwrite
    exact .ok (h.of_tree (hframe (Frame.of_replaced (.refl ..) hreplaced (fun _ _ _ => rfl) trivial)))
  | error fault t =>
    obtain ⟨-, hextends⟩ := (wp_error he).1 hwrite
    exact .error (h.of_tree (hframe (Frame.of_extends (.refl ..) hextends)))

theorem mapM {f : α → Action β} {as : List α} (hf : ∀ a ∈ as, Alike (f a)) : Alike (as.mapM f) := by
  induction as with
  | nil => rw [List.mapM_nil]; exact .pure _
  | cons a as ih =>
    rw [List.mapM_cons]
    exact (hf a (List.mem_cons_self ..)).bind fun _ =>
      (ih fun a ha => hf a (List.mem_cons_of_mem _ ha)).bind fun _ => .pure _

end Alike

namespace Renderer
variable {r : Renderer} {id : String} {q : Path} {w : Workspace}

/-- The text of the template in a file that stands. -/
def textAt (q : Path) : Action String := do
  match (← get).cache.lookup q with
  | some text => pure text
  | none =>
    let text ← Action.look (·.readText q)
    modify fun w => { w with cache := (q, text) :: w.cache }
    pure text

theorem text_eq (r : Renderer) (id : String) : r.text id = r.file id >>= textAt := rfl

/-- Where only what is true is remembered, a template has the text of its file. -/
theorem textAt_alike (hq : q.Ends ".stub") : Alike (textAt q) := by
  refine .of_reads (g := (·.readText q)) fun w hw => ?_
  unfold textAt
  rw [wp_bind, wp_get]
  cases hlookup : w.cache.lookup q with
  | some text => exact (wp_pure text).2 ⟨(hw q text hlookup).2, rfl, hw⟩
  | none =>
    simp only
    rw [wp_bind, wp_look]
    cases hread : w.tree.readText q with
    | error f => exact ⟨rfl, rfl, hw⟩
    | ok text =>
      simp only
      rw [wp_bind, wp_modify, wp_pure]
      refine ⟨rfl, rfl, fun q' text' h => ?_⟩
      rw [List.lookup_cons] at h
      split at h
      · next heq =>
        cases h
        rw [beq_iff_eq.1 heq]
        exact ⟨hq, hread⟩
      · exact hw q' text' h

theorem file_alike (r : Renderer) (id : String) : Alike (r.file id) := by
  unfold file
  refine Alike.bind (.look _) fun found => ?_
  cases found with
  | some q => exact Alike.bind .say fun _ => .pure _
  | none => exact .throw _

theorem ends_of_file {w' : Workspace} (hid : ".stub".toList <:+ id.toList) (h : r.file id w = .ok q w') :
    q.Ends ".stub" := by
  have hfound := ((wp_ok h).1 (r.wp_file id w)).2
  obtain ⟨root, -, rfl⟩ := List.mem_map.1 (firstFile?_some hfound).1
  exact Path.ends_join Path.extension_stub root hid

theorem render_alike (hid : ".stub".toList <:+ id.toList) (subs : List (String × String)) :
    Alike (r.render id subs) := by
  unfold render
  rw [text_eq]
  exact ((file_alike r id).bind_of (fun _ _ _ h => ends_of_file hid h) fun _ hq => textAt_alike hq).bind
    fun _ => .pure _

end Renderer

theorem Writer.write_alike {p : Path} (hp : p.Ends ".php") (text : String) (force : Bool) :
    Alike (Writer.write p text force) := by
  unfold Writer.write
  refine Alike.bind (.look _) fun there => ?_
  split
  · exact Alike.bind .say fun _ => .pure _
  · exact (Alike.replaceFile hp text).bind fun _ => Alike.bind (.modify fun _ => ⟨rfl, rfl⟩) fun _ =>
      Alike.bind .say fun _ => .pure _

namespace Route
variable {p : Path}

theorem conclude_alike (hp : p.Ends ".php") (names : Naming) (r : Except RouteFlaw (Option String)) :
    Alike (conclude p names r) := by
  rcases r with flaw | _ | new
  · exact .throw _
  · exact Alike.bind .say fun _ => .pure _
  · exact (Alike.replaceFile hp new).bind fun _ => Alike.bind .say fun _ => .pure _

theorem merge_alike (hp : p.Ends ".php") (names : Naming) (block fqcn boilerplate : String) :
    Alike (Route.merge p names block fqcn boilerplate) := by
  unfold merge
  refine Alike.bind (.look _) fun there => ?_
  simp only
  split
  · refine Alike.bind (.look _) fun text => ?_
    generalize merged text boilerplate names.many.kebab fqcn block = r
    exact conclude_alike hp names r
  · refine Alike.bind .say fun _ => Alike.bind (.pure _) fun text => ?_
    generalize merged text boilerplate names.many.kebab fqcn block = r
    exact conclude_alike hp names r

end Route

namespace Generator
variable {run : Run}

section Artifact
variable (hpaths : run.config.paths = {}) (hstubs : run.config.stubs = {})
include hpaths hstubs

theorem classFile_alike (c : Category) {k : Kind} (hk : k ≠ .views) : Alike (classFile run c k) := by
  unfold classFile
  refine Alike.bind_ofExcept fun t ht => Alike.bind_ofExcept fun id hid => ?_
  have hfile : t.path ∈ run.files c k := by simp [Run.files, Layout.files, Layout.target_eq ht, hk]
  refine (Renderer.render_alike (Layout.suffix_templateId hstubs hid) _).bind fun content => ?_
  exact (Writer.write_alike (Layout.ends_of_mem_files hpaths hfile) content run.force).bind fun _ => .pure _

theorem views_alike (c : Category) : Alike (views run c) := by
  unfold views
  refine Alike.bind_ofExcept fun t ht => Alike.bind (.mapM fun v hv => ?_) fun _ => .pure _
  unfold view
  refine Alike.bind_ofExcept fun id hid => ?_
  refine (Renderer.render_alike (Layout.suffix_templateId hstubs hid) _).bind fun content => ?_
  exact Writer.write_alike (Layout.ends_of_mem_files hpaths (mem_files_view ht hv)) content run.force

theorem routes_alike (c : Category) : Alike (routes run c) := by
  unfold routes
  refine Alike.bind_ofExcept fun t ht => Alike.bind_ofExcept fun id hid => ?_
  have hfile : t.path ∈ run.files c .routes := by simp [Run.files, Layout.files, Layout.target_eq ht]
  refine (Renderer.render_alike (Layout.suffix_templateId hstubs hid) _).bind fun block => ?_
  exact (Route.merge_alike (Layout.ends_of_mem_files hpaths hfile) ..).bind fun _ => by
    split <;> exact .pure _

/-- What an artifact comes to does not depend on the templates that are remembered. -/
theorem artifact_alike (c : Category) (k : Kind) : Alike (artifact run c k) := by
  cases k with
  | views => exact views_alike hpaths hstubs c
  | routes => exact routes_alike hpaths hstubs c
  | _ => exact classFile_alike hpaths hstubs c (by simp)

end Artifact

end Generator

end Scaffold
