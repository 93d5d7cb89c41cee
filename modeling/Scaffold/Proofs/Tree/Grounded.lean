import Scaffold.Proofs.Tree.Built

/-!
# Sources below a directory

In a tree that is `Grounded`, as trees of a file system are, whatever stands below a directory is seen through
every path that enters the directory (`Grounded.aims`). PHP files in directories that have no point in their
names (`Source`) do not stand in the way of one another: `apart_of_sources`.
-/

namespace Scaffold
open Edit (tempName)

variable {t : Tree} {p base : Path} {l b : Location} {rest rest' dirs : List String} {name : String} {e : Entry}
  {S : Location → Prop}

namespace Tree

/-- Every entry stands in a directory, under a name that a file may have. -/
def Grounded (t : Tree) : Prop :=
  ∀ l name e, t.entryAt (l ++ [name]) = some e →
    t.entryAt l = some .directory ∧ name.utf8ByteSize ≤ nameLimit

theorem Grounded.walk (h : t.Grounded) (hrest : ".." ∉ rest) (he : t.entryAt (l ++ rest) = some e) :
    t.walk l rest = .ok (l ++ rest) := by
  induction rest using List.reverseRecOn generalizing e with
  | nil => simp [Tree.walk]
  | append_singleton qs name ih =>
    rw [← List.append_assoc] at he
    obtain ⟨hdir, hshort⟩ := h _ name e he
    have hname : name ≠ ".." := fun hup => hrest (by simp [hup])
    rw [walk_concat hname, ih (fun hup => hrest (List.mem_append_left _ hup)) hdir]
    simp [Except.bind, hdir, Nat.not_lt.2 hshort]

theorem Grounded.aims (h : t.Grounded) (henters : t.Enters p l (dirs ++ [name])) (hname : name ≠ "") : t.Aims p := by
  refine ⟨l, dirs, name, henters, hname, fun e he => find_eq_ok.2 ⟨_, ?_, he⟩⟩
  rw [henters.locate]
  exact h.walk henters.names he

theorem Enters.below (h : t.Enters base l rest) (hrest' : ".." ∉ rest') :
    t.Enters ⟨base.anchor, base.parts ++ rest'⟩ l (rest ++ rest') := by
  obtain ⟨pre, hparts, hrest, hwalk, hdir⟩ := h
  refine ⟨pre, by rw [hparts, List.append_assoc], fun hup => ?_, hwalk, hdir⟩
  exact (List.mem_append.1 hup).elim hrest hrest'

end Tree

/-- Directories without a point in their names, and a PHP file below them. -/
inductive Path.Source : List String → Prop where
  | intro {dirs : List String} {stem : String} (plain : ∀ d ∈ dirs, '.' ∉ d.toList)
      (visible : ∃ c cs, stem.toList = c :: cs ∧ c ≠ '.') : Source (dirs ++ [stem ++ ".php"])

namespace Path.Source

theorem head_ne {part : String} (h : Source rest) (hpart : part ∈ rest) : part.toList.head? ≠ some '.' := by
  obtain @⟨dirs, stem, hplain, c, cs, hstem, hc⟩ := h
  intro hhead
  rcases List.mem_append.1 hpart with hpart | hpart
  · exact hplain part hpart (List.mem_of_mem_head? hhead)
  · rw [List.mem_singleton.1 hpart, String.toList_append, hstem, List.cons_append, List.head?_cons,
      Option.some.injEq] at hhead
    exact hc hhead

theorem names (h : Source rest) : ".." ∉ rest := fun hup => h.head_ne hup rfl

theorem exists_name (h : Source rest) : ∃ dirs name, rest = dirs ++ [name] ∧ name ≠ "" ∧
    '.' ∈ name.toList ∧ (∀ d ∈ dirs, '.' ∉ d.toList) ∧ name.toList.getLast? = some 'p' := by
  obtain @⟨dirs, stem, hplain, -⟩ := h
  have hdot : '.' ∈ (stem ++ ".php").toList := by
    rw [String.toList_append]
    exact List.mem_append_right _ (by decide)
  refine ⟨dirs, _, rfl, ?_, hdot, hplain, ?_⟩
  · rintro hempty
    rw [hempty] at hdot
    cases hdot
  · rw [String.toList_append, List.getLast?_append]
    rfl

/-- No source is a directory above another one. -/
theorem eq_of_prefix (h : Source rest) (h' : Source rest') (hlead : rest <+: rest') : rest = rest' := by
  obtain ⟨dirs, name, rfl, -, hdot, -⟩ := h.exists_name
  obtain ⟨dirs', name', rfl, -, -, hplain, -⟩ := h'.exists_name
  rcases List.prefix_concat_iff.1 hlead with heq | hdirs
  · exact heq
  · exact absurd hdot (hplain name (hdirs.subset (by simp)))

end Path.Source

theorem Edit.head_tempName (name : String) (n : Nat) : (tempName name n).toList.head? = some '.' := by
  obtain ⟨rest, hrest⟩ := tempName_eq name n
  rw [hrest, String.toList_append, String.toList_append, String.toList_append]
  rfl

/-- Sources below one location do not stand in the way of one another. -/
theorem apart_of_sources (h : ∀ s, S s → ∃ rest, Path.Source rest ∧ s = b ++ rest) : Apart S where
  files k s hk hs hlead := by
    obtain ⟨rest, hrest, rfl⟩ := h k hk
    obtain ⟨rest', hrest', rfl⟩ := h s hs
    rw [hrest.eq_of_prefix hrest' ((List.prefix_append_right_inj b).1 hlead)]
  temps above name n s hname hs hlead := by
    obtain ⟨rest, hrest, heq⟩ := h _ hname
    obtain ⟨rest', hrest', rfl⟩ := h s hs
    obtain ⟨dirs, name', rfl, -⟩ := hrest.exists_name
    rw [← List.append_assoc] at heq
    obtain ⟨rfl, -⟩ := List.append_inj' heq rfl
    -- the temporary file starts with a point, and no part of a source does
    rw [List.append_assoc, List.prefix_append_right_inj] at hlead
    exact hrest'.head_ne (hlead.subset (by simp)) (Edit.head_tempName name n)

/-- Each source below a path that enters a directory can be told from the tree. -/
theorem Tree.Grounded.aims_of_source (h : t.Grounded) (henters : t.Enters base l rest) (hrest' : Path.Source rest') :
    t.Aims ⟨base.anchor, base.parts ++ rest'⟩ := by
  obtain ⟨dirs, name, rfl, hname, -⟩ := hrest'.exists_name
  have hbelow : t.Enters ⟨base.anchor, base.parts ++ (dirs ++ [name])⟩ l (rest ++ dirs ++ [name]) := by
    rw [List.append_assoc]
    exact henters.below hrest'.names
  exact h.aims hbelow hname

end Scaffold
