import Scaffold.Proofs.Tree.Grounded
import Scaffold.Proofs.Tree.Read
import Scaffold.Stubs

/-!
# Where nothing but the packaged templates stands

A fresh project has an empty working directory, and the packaged templates can be read (`Tree.Fresh`). A tree that
holds the templates and the working directory alone is one (`Stubs.fresh_freshTree`).
-/

namespace Scaffold

/-- An empty project beside the packaged templates. -/
structure Tree.Fresh (t : Tree) : Prop where
  grounded : t.Grounded
  home : t.entryAt t.home = some .directory
  empty : ∀ rest, rest ≠ [] → t.entryAt (t.home ++ rest) = none
  packaged : ∀ a ∈ Stubs.packaged, t.readText (Stubs.root / a.1) = .ok a.2

section Beside
variable {t : Tree} {extra : List (Location × Entry)} {l : Location} {e : Entry} {p : Path} {text : String}

/-- A tree with more entries behind its own. -/
def Tree.beside (t : Tree) (extra : List (Location × Entry)) : Tree :=
  { t with entries := t.entries ++ extra }

theorem Tree.entryAt_beside (h : t.entryAt l = some e) : (t.beside extra).entryAt l = some e := by
  unfold Tree.entryAt at h ⊢
  split at h
  · next hroot => rw [if_pos hroot, h]
  · next hroot => rw [if_neg hroot, Tree.beside, List.lookup_append, h, Option.some_or]

theorem Tree.readText_beside (h : t.readText p = .ok text) : (t.beside extra).readText p = .ok text := by
  obtain ⟨mode, bytes, s, hnull, hfind, hs⟩ := Tree.readText_eq_ok.1 h
  obtain ⟨l, hlocate, hentry⟩ := Tree.find_eq_ok.1 hfind
  exact Tree.readText_eq_ok.2 ⟨mode, bytes, s, hnull, Tree.find_eq_ok.2
    ⟨l, Tree.walk_mono (fun _ => Tree.entryAt_beside) hlocate, Tree.entryAt_beside hentry⟩, hs⟩

end Beside

namespace Stubs

set_option maxRecDepth 100000 in
theorem return_notMem : ∀ a ∈ packaged, '\r' ∉ a.2.toList := by
  have hplain : ∀ s : String, (∃ cs, s = String.ofList cs ∧ cs.all (· != '\r') = true) → '\r' ∉ s.toList := by
    rintro s ⟨cs, rfl, hall⟩ hmem
    rw [String.toList_ofList] at hmem
    simpa using List.all_eq_true.1 hall _ hmem
  simp only [packaged, List.forall_mem_cons, List.not_mem_nil, false_imp_iff, implies_true, and_true]
  and_intros <;> exact hplain _ ⟨_, rfl, by decide +kernel⟩

/-- A working directory. -/
def srv : Location := ["srv"]

theorem nodup_freshTree : ((freshTree srv).entries.map Prod.fst).Nodup := by
  decide +kernel

theorem locate_packaged : ∀ id ∈ packaged.map Prod.fst, Tree.hasNull (root / id) = false ∧
    (freshTree srv).locate (root / id) = .ok (root.parts ++ (Path.ofString id).parts) := by
  decide +kernel

theorem of_mem_freshTree : ∀ key ∈ (freshTree srv).entries.map Prod.fst,
    (freshTree srv).entryAt key.dropLast = some .directory ∧
      (∀ name ∈ key.getLast?, name.utf8ByteSize ≤ Tree.nameLimit) ∧ (key = srv ∨ ¬ srv <+: key) := by
  decide +kernel

theorem lookup_of_mem {α β : Type} [BEq α] [LawfulBEq α] {as : List (α × β)} {a : α} {b : β}
    (hnodup : (as.map Prod.fst).Nodup) (h : (a, b) ∈ as) : as.lookup a = some b := by
  obtain ⟨before, behind, rfl⟩ := List.append_of_mem h
  rw [List.map_append, List.map_cons, List.nodup_append] at hnodup
  refine List.lookup_eq_some_iff.2 ⟨before, behind, rfl, fun x hx => ?_⟩
  simpa using (hnodup.2.2 x.1 (List.mem_map_of_mem hx) a (List.mem_cons_self ..)).symm

theorem mem_of_entryAt {l : Location} {e : Entry} (hne : l ≠ []) (h : (freshTree srv).entryAt l = some e) :
    l ∈ (freshTree srv).entries.map Prod.fst := by
  rw [Tree.entryAt, if_neg hne] at h
  obtain ⟨before, behind, hentries, -⟩ := List.lookup_eq_some_iff.1 h
  exact List.mem_map.2 ⟨(l, e), by simp [hentries], rfl⟩

theorem entryAt_of_mem {l : Location} {e : Entry} (hne : l ≠ []) (h : (l, e) ∈ (freshTree srv).entries) :
    (freshTree srv).entryAt l = some e := by
  rw [Tree.entryAt, if_neg hne]
  exact lookup_of_mem nodup_freshTree h

theorem fresh_freshTree : (freshTree srv).Fresh where
  grounded l name e he := by
    obtain ⟨hdir, hshort, -⟩ := of_mem_freshTree _ (mem_of_entryAt (by simp) he)
    rw [List.dropLast_concat] at hdir
    exact ⟨hdir, hshort name (by simp)⟩
  home := by decide +kernel
  empty rest hrest := by
    by_contra hsome
    obtain ⟨e, he⟩ := Option.ne_none_iff_exists'.1 hsome
    obtain ⟨-, -, hsrv | hout⟩ := of_mem_freshTree _ (mem_of_entryAt (by simp [hrest]) he)
    · exact hrest (List.append_right_eq_self.1 hsrv)
    · exact hout (List.prefix_append ..)
  packaged a ha := by
    obtain ⟨hnull, hlocate⟩ := locate_packaged a.1 (List.mem_map_of_mem ha)
    have hmem : (root.parts ++ (Path.ofString a.1).parts, Entry.file 0o644 a.2.toUTF8) ∈ (freshTree srv).entries :=
      List.mem_append_right _ (List.mem_append_right _ (List.mem_map_of_mem ha))
    have hentry := entryAt_of_mem (by simp [root]) hmem
    exact Tree.readText_of_find hnull (Tree.find_eq_ok.2 ⟨_, hlocate, hentry⟩) (return_notMem a ha)

end Stubs

end Scaffold
