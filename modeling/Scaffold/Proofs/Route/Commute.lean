import Scaffold.Proofs.Name.Letters
import Scaffold.Proofs.Route.Fate

/-!
# Two merges in either order

The lines of a merged text are those of the old one, the import and the block (`perm_insertedLines`). So if the
lines of one call have nothing to do with the other (`Call.Unaware`), both come to the same status in either order
(`Call.Left.status`), and the files that they leave have the same lines, each as often (`Call.left_comm`).
-/

namespace Scaffold.Route
open Text (isSolid stripped)

variable {doc doc' : Document} {text new fqcn block : String} {c d : Call} {l : Line} {stage stage' : Stage}

section Imports

theorem tag_eq_import {raw : String} {tag : Tag} (h : tagLine 0 stage raw = .ok (tag, stage')) :
    tag = .import_ ↔ isImport (stripped raw) = true := by
  unfold tagLine at h
  have hmarker : Text.startsWith (stripped raw) openTag = true → isImport (stripped raw) = false := fun h =>
    not_isImport_of_startsWith h ⟨'<', by decide, by decide⟩
  have hdirective : isDirective (stripped raw) = true → isImport (stripped raw) = false :=
    not_isImport_of_isDirective
  have hblank : (stripped raw).isEmpty = true → isImport (stripped raw) = false := fun h => by
    rw [String.isEmpty_iff.1 h]
    decide
  cases stage <;> grind

theorem Reads.tag_eq_import (h : Reads stage doc stage') (hl : l ∈ doc) :
    l.tag = .import_ ↔ isImport (stripped l.text) = true := by
  induction h with
  | nil => cases hl
  | cons line rest ih =>
    rcases List.mem_cons.1 hl with rfl | hl
    · exact Route.tag_eq_import line
    · exact ih hl

theorem isImport_importOf (fqcn : String) : isImport (importOf fqcn) = true := by
  rw [isImport, Text.startsWith, List.isPrefixOf_iff_prefix, toList_importOf]
  exact ⟨fqcn.toList ++ [';'], rfl⟩

/-- The imports of a file are the lines that are written as such. -/
theorem mem_imports (hp : Document.parse text = .ok doc) {statement : String} (hs : isImport statement = true) :
    statement ∈ doc.imports ↔ ∃ raw ∈ fileLines text, stripped raw = statement := by
  obtain ⟨hls, stage, hreads, -⟩ := parse_ok hp
  rw [← hls]
  constructor
  · intro hmem
    obtain ⟨l, hl, rfl⟩ := List.mem_map.1 hmem
    exact ⟨l.text, List.mem_map_of_mem (List.mem_of_mem_filter hl), rfl⟩
  · rintro ⟨raw, hraw, rfl⟩
    obtain ⟨l, hl, rfl⟩ := List.mem_map.1 hraw
    exact List.mem_map.2 ⟨l, List.mem_filter.2 ⟨hl, by simpa using (hreads.tag_eq_import hl).2 hs⟩, rfl⟩

end Imports

section Lines

/-- The import that a merge adds. -/
def newImport (doc : Document) (fqcn : String) : List String :=
  if importOf fqcn ∈ doc.imports then [] else [importOf fqcn]

/-- An import that is new stands among the lines of the old text. -/
theorem perm_insertedLines (hp : Document.parse text = .ok doc) (fqcn block : String) :
    (insertedLines doc doc.importPlace fqcn block).Perm
      ((fileLines text).rdropWhile (fun l => !isSolid l) ++ newImport doc fqcn ++ "" :: Document.keptLines block) := by
  obtain ⟨hls, stage, hreads, hs⟩ := parse_ok hp
  have hi := hreads.importPlace hs
  unfold insertedLines newImport
  rw [← hls, hi.rdropWhile_lines hreads]
  refine List.Perm.append_right _ ?_
  rw [List.append_assoc, List.append_assoc]
  exact List.Perm.append_left _ List.perm_append_comm

theorem notMem_of_mem_fileLines (hr : '\r' ∉ text.toList) {raw : String} (h : raw ∈ fileLines text) :
    '\n' ∉ raw.toList ∧ '\r' ∉ raw.toList := by
  obtain ⟨hn, hin⟩ := mem_lines (mem_lines_of_mem_fileLines h)
  exact ⟨hn, fun h => hr (hin.mem h)⟩

theorem mem_insertedLines (hp : Document.parse text = .ok doc) {raw : String}
    (h : raw ∈ insertedLines doc doc.importPlace fqcn block) :
    raw ∈ fileLines text ∨ raw = importOf fqcn ∨ raw = "" ∨ raw ∈ Document.keptLines block := by
  rw [(perm_insertedLines hp _ _).mem_iff] at h
  simp only [List.mem_append, List.mem_cons] at h
  rcases h with (h | h) | h | h
  · exact .inl ((List.rdropWhile_prefix ..).subset h)
  · unfold newImport at h
    split at h
    · cases h
    · exact .inr (.inl (List.mem_singleton.1 h))
  · exact .inr (.inr (.inl h))
  · exact .inr (.inr (.inr h))

theorem rdropWhile_insertedLines (hne : Document.keptLines block ≠ []) (i : Nat) :
    (insertedLines doc i fqcn block).rdropWhile (fun l => !isSolid l) = insertedLines doc i fqcn block := by
  obtain ⟨front, hfront⟩ : ∃ front, insertedLines doc i fqcn block = front ++ "" :: Document.keptLines block :=
    ⟨_, rfl⟩
  rw [hfront, List.rdropWhile_eq_self_iff]
  intro hl
  rw [List.getLast_append_of_ne_nil _ (List.cons_ne_nil _ _), List.getLast_cons hne]
  have hsolid : ∀ raw ∈ Document.keptLines block, isSolid raw = true := fun raw hraw =>
    (Bool.and_eq_true_iff.1 (List.mem_filter.1 hraw).2).1
  simp [hsolid _ (List.getLast_mem hne)]

theorem mem_rdropWhile {raw : String} {ls : List String} (hsolid : isSolid raw = true) :
    raw ∈ ls.rdropWhile (fun l => !isSolid l) ↔ raw ∈ ls := by
  have hfilter := congrArg (raw ∈ ·) (filter_rdropWhile ls)
  simpa [List.mem_filter, hsolid] using hfilter

end Lines

/-- What stands there is the same, or files whose lines are the same, each as often. -/
def SameLines (e e' : Option Entry) : Prop :=
  e = e' ∨ ∃ mode text text', e = some (.file mode text.toUTF8) ∧ e' = some (.file mode text'.toUTF8) ∧
    (Text.lines text).Perm (Text.lines text')

namespace Call

theorem change_eq_some : c.change text = .ok (some new) ↔ ∃ doc, Document.parse text = .ok doc ∧
    holdsToken text c.token = false ∧
      new = "\n".intercalate (insertedLines doc doc.importPlace c.fqcn c.block) ++ "\n" := by
  unfold change
  cases hp : Document.parse text with
  | error flaw => simp [Except.map]
  | ok doc =>
    obtain ⟨-, stage, hreads, hs⟩ := parse_ok hp
    have hrender : ((doc.withImport (importOf c.fqcn)).1.withBlock c.block).render =
        "\n".intercalate (insertedLines doc doc.importPlace c.fqcn c.block) ++ "\n" := render_insertion hreads hs
    cases ht : holdsToken text c.token <;> simp [Except.map, hrender, eq_comm]

theorem change_eq_none : c.change text = .ok none ↔
    (∃ doc, Document.parse text = .ok doc) ∧ holdsToken text c.token = true := by
  unfold change
  cases hp : Document.parse text with
  | error flaw => simp [Except.map]
  | ok doc => cases ht : holdsToken text c.token <;> simp [Except.map]

/-- The lines of a call have nothing to do with another call. -/
structure Unaware (c d : Call) : Prop where
  fqcn : c.fqcn ≠ d.fqcn
  opening : holdsToken (importOf c.fqcn) d.token = false
  block : ∀ raw ∈ Document.keptLines c.block, holdsToken raw d.token = false

section Change
variable (hr : '\r' ∉ text.toList) (hc : c.Clean) (h : c.change text = .ok (some new))
include hr hc h

/-- What a call has written is read as it was written, and parses. -/
theorem change_lines : '\r' ∉ new.toList ∧ (∃ doc', Document.parse new = .ok doc') ∧
    ∃ doc, Document.parse text = .ok doc ∧
      Text.lines new = insertedLines doc doc.importPlace c.fqcn c.block ++ [""] := by
  obtain ⟨doc, hp, htoken, rfl⟩ := change_eq_some.1 h
  have hlines : ∀ raw ∈ insertedLines doc doc.importPlace c.fqcn c.block, '\n' ∉ raw.toList ∧ '\r' ∉ raw.toList := by
    intro raw hraw
    rcases mem_insertedLines hp hraw with hraw | rfl | rfl | hraw
    · exact notMem_of_mem_fileLines hr hraw
    · rw [toList_importOf]
      simp [hc.fqcn_newline, hc.fqcn_return]
    · simp
    · obtain ⟨hn, hin⟩ := mem_lines (List.mem_of_mem_filter hraw)
      exact ⟨hn, fun h => hc.block_return (hin.mem h)⟩
  have hreturn : '\r' ∉ ("\n".intercalate (insertedLines doc doc.importPlace c.fqcn c.block) ++ "\n").toList := by
    rw [String.toList_append, String.toList_intercalate, List.mem_append]
    rintro (hmem | hmem)
    · rcases Text.mem_intercalate hmem with hmem | ⟨l, hl, hmem⟩
      · revert hmem
        decide
      · obtain ⟨raw, hraw, rfl⟩ := List.mem_map.1 hl
        exact (hlines raw hraw).2 hmem
    · revert hmem
      decide
  have hne : insertedLines doc doc.importPlace c.fqcn c.block ≠ [] := by simp [insertedLines]
  refine ⟨hreturn, ?_, doc, hp, Text.lines_joined hne fun l hl => (hlines l hl).1⟩
  obtain ⟨-, stage, hreads, hs⟩ := parse_ok hp
  obtain ⟨doc', hparse⟩ := parse_reread hr hp (hc.fits.imports doc) hc.fits.block
  rw [render_insertion hreads hs, reread, Text.unifyNewlines_of_notMem hreturn, String.ofList_toList] at hparse
  exact ⟨doc', hparse⟩

variable (hunaware : c.Unaware d)
include hunaware

/-- A call changes nothing about the registration of another one. -/
theorem holdsToken_change (hd : d.Clean) : holdsToken new d.token = holdsToken text d.token := by
  obtain ⟨-, -, doc, hp, hlines⟩ := change_lines hr hc h
  replace hlines := fileLines_eq hlines
  rw [Bool.eq_iff_iff]
  constructor
  · intro hheld
    obtain ⟨raw, hraw, hheld⟩ := exists_line_of_holdsToken hd.fits.newline hheld
    rw [← filter_fileLines, List.mem_filter, hlines] at hraw
    rcases mem_insertedLines hp hraw.1 with hmem | rfl | rfl | hmem
    · refine holdsToken_of_mem_solid ?_ hheld
      rw [← filter_fileLines]
      exact List.mem_filter.2 ⟨hmem, hraw.2⟩
    · rw [hunaware.opening] at hheld
      cases hheld
    · cases hraw.2
    · rw [hunaware.block raw hmem] at hheld
      cases hheld
  · refine holdsToken_mono hd.fits.newline fun raw hraw => ?_
    rw [← filter_fileLines, List.mem_filter] at hraw
    rw [← filter_fileLines, List.mem_filter, hlines]
    refine ⟨(perm_insertedLines hp _ _).mem_iff.2 ?_, hraw.2⟩
    exact List.mem_append_left _ (List.mem_append_left _ ((mem_rdropWhile hraw.2).2 hraw.1))

/-- After a call, another one adds the import that it would have added before. -/
theorem newImport_change (hp : Document.parse text = .ok doc) (hp' : Document.parse new = .ok doc') :
    newImport doc' d.fqcn = newImport doc d.fqcn := by
  obtain ⟨-, -, doc₁, hp₁, hlines⟩ := change_lines hr hc h
  obtain rfl : doc = doc₁ := Except.ok.inj (hp.symm.trans hp₁)
  have hblank : isImport (stripped "") = false := by decide +kernel
  have himport := isImport_importOf d.fqcn
  have hiff : importOf d.fqcn ∈ doc'.imports ↔ importOf d.fqcn ∈ doc.imports := by
    rw [mem_imports hp' himport, mem_imports hp himport, fileLines_eq hlines]
    constructor
    · rintro ⟨raw, hraw, heq⟩
      rcases mem_insertedLines hp hraw with hmem | rfl | rfl | hmem
      · exact ⟨raw, hmem, heq⟩
      · rw [stripped_importOf, ← String.toList_inj, toList_importOf, toList_importOf] at heq
        exact absurd (String.toList_inj.1 (by simpa using heq)) hunaware.fqcn
      · rw [← heq, hblank] at himport
        cases himport
      · rw [← heq, isImport_of_mem_keptLines hmem] at himport
        cases himport
    · rintro ⟨raw, hraw, heq⟩
      have hsolid : isSolid raw = true := by
        rw [isSolid, heq]
        simpa [isSolid, stripped_importOf] using isSolid_importOf d.fqcn
      refine ⟨raw, (perm_insertedLines hp _ _).mem_iff.2 ?_, heq⟩
      exact List.mem_append_left _ (List.mem_append_left _ ((mem_rdropWhile hsolid).2 hraw))
  unfold newImport
  simp only [hiff]

end Change

/-- Another call finds its routes registered after a call if it found them so before. -/
theorem change_none (hr : '\r' ∉ text.toList) (hc : c.Clean) (h : c.change text = .ok (some new)) (hd : d.Clean)
    (hunaware : c.Unaware d) (hnone : d.change text = .ok none) : d.change new = .ok none := by
  obtain ⟨-, hparses, -⟩ := change_lines hr hc h
  refine change_eq_none.2 ⟨hparses, ?_⟩
  rw [holdsToken_change hr hc h hunaware hd]
  exact (change_eq_none.1 hnone).2

/-- Another call adds its lines behind those of a call. -/
theorem change_twice (hr : '\r' ∉ text.toList) (hc : c.Clean) (h : c.change text = .ok (some new)) (hd : d.Clean)
    (hunaware : c.Unaware d) {new' : String} (h' : d.change text = .ok (some new')) : ∃ both doc,
      d.change new = .ok (some both) ∧ Document.parse text = .ok doc ∧ (Text.lines both).Perm
        ((fileLines text).rdropWhile (fun l => !isSolid l) ++
          ((newImport doc c.fqcn ++ "" :: Document.keptLines c.block) ++
            (newImport doc d.fqcn ++ "" :: Document.keptLines d.block)) ++ [""]) := by
  obtain ⟨hreturn, ⟨doc', hp'⟩, doc, hp, hlines⟩ := change_lines hr hc h
  obtain ⟨-, -, htoken, -⟩ := change_eq_some.1 h'
  rw [← holdsToken_change hr hc h hunaware hd] at htoken
  have hboth := change_eq_some.2 ⟨doc', hp', htoken, rfl⟩
  obtain ⟨-, -, doc₂, hp₂, hlines₂⟩ := change_lines hreturn hd hboth
  obtain rfl : doc' = doc₂ := Except.ok.inj (hp'.symm.trans hp₂)
  refine ⟨_, doc, hboth, hp, ?_⟩
  have hne : Document.keptLines c.block ≠ [] := by
    obtain ⟨raw, hraw, -⟩ := hc.token
    exact List.ne_nil_of_mem hraw
  have hfirst := perm_insertedLines hp c.fqcn c.block
  have hsecond := perm_insertedLines hp' d.fqcn d.block
  -- the file ends with the block of the first call, so no line of it is dropped
  rw [newImport_change hr hc h hunaware hp hp', fileLines_eq hlines, rdropWhile_insertedLines hne] at hsecond
  rw [hlines₂]
  refine (hsecond.trans ((hfirst.append_right _).append_right _)).append_right _ |>.trans ?_
  simp only [List.append_assoc]
  exact .refl _

/-- Two calls that both add their routes leave the same lines in either order. -/
theorem change_comm (hr : '\r' ∉ text.toList) (hc : c.Clean) (hd : d.Clean) (hcd : c.Unaware d) (hdc : d.Unaware c)
    {new' : String} (h : c.change text = .ok (some new)) (h' : d.change text = .ok (some new')) :
    ∃ both both', d.change new = .ok (some both) ∧ c.change new' = .ok (some both') ∧
      (Text.lines both).Perm (Text.lines both') := by
  obtain ⟨both, doc, hboth, hp, hlines⟩ := change_twice hr hc h hd hcd h'
  obtain ⟨both', doc', hboth', hp', hlines'⟩ := change_twice hr hd h' hc hdc h
  obtain rfl : doc = doc' := Except.ok.inj (hp.symm.trans hp')
  refine ⟨both, both', hboth, hboth', hlines.trans (.trans ?_ hlines'.symm)⟩
  exact (List.perm_append_comm.append_left _).append_right _

section Files
variable {t t₁ t₂ s₁ s₂ : Tree} {file : Path}

/-- What a call has left at its file. -/
structure Left (c : Call) (file : Path) (t t' : Tree) : Prop where
  grows : t.Grows t'
  takes : t'.takes file = t.takes file
  kept : (c.fate t file).2 = none → t'.entryAt (file.resolveFrom t.home) = t.entryAt (file.resolveFrom t.home)
  written : ∀ new, (c.fate t file).2 = some new →
    t'.find file = .ok (.file (Edit.modeAt t (file.resolveFrom t.home)) new.toUTF8)

theorem Left.sees (h : c.Left file t t₁) (hsees : t.Sees file) : t₁.Sees file := by
  cases hc : (c.fate t file).2 with
  | none => exact hsees.grows h.grows (h.kept hc)
  | some new => exact Tree.sees_of_find (h.written new hc)

theorem Left.modeAt (h : c.Left file t t₁) (hsome : (c.fate t file).2 = some new) :
    Edit.modeAt t₁ (file.resolveFrom t.home) = Edit.modeAt t (file.resolveFrom t.home) := by
  have hfind := Tree.find_eq_resolve (h.written new hsome)
  rw [h.grows.home] at hfind
  rw [Edit.modeAt, hfind]

/-- Two calls that start a file in the same way and have nothing to do with each other. -/
structure Beside (c d : Call) : Prop where
  clean : c.Clean
  clean' : d.Clean
  unaware : c.Unaware d
  unaware' : d.Unaware c
  packaged : c.Packaged
  boilerplate : d.boilerplate = c.boilerplate

theorem Beside.symm (h : c.Beside d) : d.Beside c where
  clean := h.clean'
  clean' := h.clean
  unaware := h.unaware'
  unaware' := h.unaware
  packaged := by
    have hpackaged := h.packaged
    rwa [Packaged, ← h.boilerplate] at hpackaged
  boilerplate := h.boilerplate.symm

theorem notMem_of_startsFrom (hp : c.Packaged) (h : StartsFrom t file c.boilerplate text) : '\r' ∉ text.toList := by
  cases h with
  | present read => exact Tree.notMem_of_readText read
  | blank => exact hp.parses.1
  | missing => exact hp.parses.1

/-- What a call makes of a file that can be put there. -/
def outcome : Except RouteFlaw (Option String) → Status × Option String
  | .error _ => (.failed, none)
  | .ok none => (.skipped, none)
  | .ok (some new) => (.created, some new)

theorem fate_of_takes (h : StartsFrom t file c.boilerplate text) (htakes : t.takes file = true) :
    c.fate t file = outcome (c.change text) := by
  rw [fate_of_startsFrom h]
  rcases c.change text with _ | _ | _ <;> simp [outcome, htakes]

variable (h : c.Beside d)
include h

theorem Left.fate_of_some (hl : c.Left file t t₁) (hc : (c.fate t file).2 = some new) : ∃ text,
    '\r' ∉ text.toList ∧ c.change text = .ok (some new) ∧ d.fate t file = outcome (d.change text) ∧
      d.fate t₁ file = outcome (d.change new) := by
  obtain ⟨-, htakes, text, hs, hchange⟩ := fate_eq_created hc
  have hr := notMem_of_startsFrom h.packaged hs
  obtain ⟨hreturn, ⟨doc, hparse⟩, -⟩ := change_lines hr h.clean hchange
  have hread : t₁.readText file = .ok new :=
    Tree.readText_of_find (Tree.hasNull_of_takes htakes) (hl.written new hc) hreturn
  refine ⟨text, hr, hchange, fate_of_takes (h.boilerplate ▸ hs) htakes, ?_⟩
  exact fate_of_takes (.present hread (isSolid_of_parse hparse)) (hl.takes.trans htakes)

theorem Left.fate_of_mixed (hl : c.Left file t t₁) (hc : (c.fate t file).2 = some new)
    (hd : (d.fate t file).2 = none) : d.fate t₁ file = d.fate t file := by
  obtain ⟨text, hr, hchange, hfate, hafter⟩ := hl.fate_of_some h hc
  rw [hafter, hfate]
  rw [hfate] at hd
  rcases hother : d.change text with flaw | _ | new'
  · obtain ⟨doc, hparse, -⟩ := change_eq_some.1 hchange
    simp [change, hparse, Except.map] at hother
  · rw [change_none hr h.clean hchange h.clean' h.unaware hother]
  · rw [hother] at hd
    cases hd

theorem Left.fate_of_both {new' : String} (hl : c.Left file t t₁) (hc : (c.fate t file).2 = some new)
    (hd : (d.fate t file).2 = some new') : ∃ both, d.fate t₁ file = (.created, some both) ∧
      ∀ s₁, d.Left file t s₁ → ∃ both', c.fate s₁ file = (.created, some both') ∧
        (Text.lines both).Perm (Text.lines both') := by
  obtain ⟨text, hreturn, hchange, hfate, hafter⟩ := hl.fate_of_some h hc
  have hchange' : d.change text = .ok (some new') := by
    rw [hfate] at hd
    rcases hother : d.change text with flaw | _ | new₁ <;> rw [hother] at hd <;> cases hd
    rfl
  obtain ⟨both, both', hboth, hboth', hperm⟩ :=
    change_comm hreturn h.clean h.clean' h.unaware h.unaware' hchange hchange'
  refine ⟨both, by rw [hafter, hboth]; rfl, fun s₁ hr => ⟨both', ?_, hperm⟩⟩
  obtain ⟨-, -, -, -, hafter'⟩ := hr.fate_of_some h.symm hd
  rw [hafter', hboth']
  rfl

variable (hshort : Tree.Short file) (hsees : t.Sees file)
include hshort hsees

omit h in
theorem Left.fate_of_none (hl : c.Left file t t₁) (hc : (c.fate t file).2 = none) :
    d.fate t₁ file = d.fate t file :=
  fate_eq hl.grows.home (hl.kept hc) hsees (hl.sees hsees) hshort hl.takes

theorem Left.status (hl : c.Left file t t₁) : (d.fate t₁ file).1 = (d.fate t file).1 := by
  cases hc : (c.fate t file).2 with
  | none => rw [hl.fate_of_none hshort hsees hc]
  | some new =>
    cases hd : (d.fate t file).2 with
    | none => rw [hl.fate_of_mixed h hc hd]
    | some new' =>
      obtain ⟨both, hboth, -⟩ := hl.fate_of_both h hc hd
      rw [hboth, (fate_eq_created hd).1]

theorem left_comm_of_none (hl : c.Left file t t₁) (hl' : d.Left file t₁ t₂) (hr : d.Left file t s₁)
    (hr' : c.Left file s₁ s₂) (hc : (c.fate t file).2 = none) :
    t₂.entryAt (file.resolveFrom t.home) = s₂.entryAt (file.resolveFrom t.home) := by
  have hkept := hl.kept hc
  have hsecond := hl.fate_of_none (d := d) hshort hsees hc
  have hthird : c.fate s₁ file = c.fate t file := by
    cases hd : (d.fate t file).2 with
    | none => exact hr.fate_of_none hshort hsees hd
    | some new => exact hr.fate_of_mixed h.symm hd hc
  have hlast := hr'.kept (hthird ▸ hc)
  have hkept' := hl'.kept
  have hwritten' := hl'.written
  rw [hl.grows.home] at hkept' hwritten'
  rw [hr.grows.home] at hlast
  rw [hlast]
  cases hd : (d.fate t file).2 with
  | none => rw [hkept' (hsecond ▸ hd), hkept, hr.kept hd]
  | some new =>
    have hfind := Tree.find_eq_resolve (hwritten' new (hsecond ▸ hd))
    have hfind' := Tree.find_eq_resolve (hr.written new hd)
    rw [hl'.grows.home, hl.grows.home, Edit.modeAt, hkept] at hfind
    rw [hr.grows.home] at hfind'
    rw [hfind, hfind']
    rfl

/-- Two calls leave the same lines in either order. -/
theorem left_comm (hl : c.Left file t t₁) (hl' : d.Left file t₁ t₂) (hr : d.Left file t s₁)
    (hr' : c.Left file s₁ s₂) :
    SameLines (t₂.entryAt (file.resolveFrom t.home)) (s₂.entryAt (file.resolveFrom t.home)) := by
  cases hc : (c.fate t file).2 with
  | none => exact .inl (left_comm_of_none h hshort hsees hl hl' hr hr' hc)
  | some new =>
    cases hd : (d.fate t file).2 with
    | none => exact .inl (left_comm_of_none h.symm hshort hsees hr hr' hl hl' hd).symm
    | some new' =>
      obtain ⟨both, hboth, hswap⟩ := hl.fate_of_both h hc hd
      obtain ⟨both', hboth', hperm⟩ := hswap s₁ hr
      -- the second call keeps the mode that the first one has left
      have hfind := Tree.find_eq_resolve (hl'.written both (by rw [hboth]))
      have hfind' := Tree.find_eq_resolve (hr'.written both' (by rw [hboth']))
      rw [hl'.grows.home, hl.grows.home, hl.modeAt hc] at hfind
      rw [hr'.grows.home, hr.grows.home, hr.modeAt hd] at hfind'
      exact .inr ⟨_, both, both', hfind, hfind', hperm⟩

end Files

end Call

end Scaffold.Route
