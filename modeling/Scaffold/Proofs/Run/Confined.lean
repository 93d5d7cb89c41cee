import Scaffold.Proofs.Run.Finished

/-!
# Where a run writes

`generate_confined`: whatever the configuration says, the planned files of an accepted request lie below
the base path of the project, and each file that a run makes or changes is one of them. The one other file
that a run may make is that of its database.

The review has checked the configured directories and the version. What else goes into a path is made of
the letters of a name.
-/

namespace Scaffold

theorem Path.Below.eq_append {base p : Path} (h : Path.Below base p) :
    ∃ q : Path, q.isAbsolute = false ∧ q.climbs = false ∧ p = base.append q := by
  obtain ⟨rest, hrest, rfl⟩ := h
  refine ⟨⟨.relative, rest⟩, rfl, ?_, rfl⟩
  simpa [Path.climbs] using hrest

namespace Generator
variable {g : Generator} {entity : String} {o : Options} {t₀ : Tree} {elapsed : Float}

theorem below_planned (ha : Accepted g.config o) {p : Path}
    (hp : p ∈ g.routeFiles entity o ++ g.ownFiles entity o) : Path.Below g.config.basePath p := by
  rcases List.mem_append.1 hp with hp | hp
  · obtain ⟨names, c, k, hn, -, -, hfile⟩ := exists_of_mem_filesOf hp
    exact Layout.below_files ha (Naming.spelled hn) hfile
  · obtain ⟨names, c, k, hn, -, -, hfile⟩ := exists_of_mem_filesOf hp
    exact Layout.below_files ha (Naming.spelled hn) hfile

/-- Every planned file may be changed and made here, so the run needs no condition. -/
theorem generate_course (g : Generator) (entity : String) (o : Options) (elapsed : Float) (t₀ : Tree) :
    Keeps (Course t₀ (g.Planned entity o t₀.home) (g.MayMake entity o t₀.home) fun _ _ => False)
      (g.generate entity o elapsed) := by
  refine generate_keeps Course.logFree fun report => accepted_keeps Course.logFree
    (fun names => Introspect.columns_keeps fun l hl => .inr hl) (fun names columns hn c k hm => ?_) report
  refine attempt_course (fun _ _ h => h.elim) fun p hp => ?_
  have hplanned : g.Planned entity o t₀.home (p.resolveFrom t₀.home) := ⟨p, mem_planned hn hm hp, rfl⟩
  exact ⟨.inl hplanned, fun _ => hplanned, fun _ => .inl hplanned⟩

/-- What a run may leave of `t₀`: each file is as before, or is a planned one, or that of the database. -/
def Confined (g : Generator) (entity : String) (o : Options) (t₀ t : Tree) : Prop :=
  ∀ l mode bytes, t.entryAt l = some (.file mode bytes) → t₀.entryAt l = some (.file mode bytes) ∨
    (∃ p ∈ g.routeFiles entity o ++ g.ownFiles entity o, p.resolveFrom t₀.home = l) ∨
      g.storage?.bind (·.file? t₀.home) = some l

/-- However the run of an accepted request ends, all files that it has made or changed are planned ones, below
the base path, or that of its database. -/
theorem generate_confined (g : Generator) (entity : String) (o : Options) (elapsed : Float) (w : Workspace)
    {review : Review} (hreview : Review.ofRequest w.tree (some entity) o g.config = .ok review)
    (herrors : review.hasErrors = false) :
    (∀ p ∈ g.routeFiles entity o ++ g.ownFiles entity o,
        ∃ q : Path, q.isAbsolute = false ∧ q.climbs = false ∧ p = g.config.basePath.append q) ∧
      Leaves (g.Confined entity o w.tree) (g.generate entity o elapsed) w := by
  refine ⟨fun p hp => (below_planned (Review.accepted hreview herrors) hp).eq_append, ?_⟩
  have hframe : ∀ t, Frame w.tree (g.Planned entity o w.tree.home) (g.MayMake entity o w.tree.home) t →
      g.Confined entity o w.tree t := fun t ht l mode bytes hl =>
    (ht.changed hl).imp_right fun h => h.elim .inl id
  exact wp_mono ((generate_course g entity o elapsed w.tree).wp w ⟨.refl .., fun _ _ _ h => h.elim⟩)
    (fun _ w' h => hframe w'.tree h.frame) fun _ w' h => hframe w'.tree h.frame

/-- The base path itself may climb, here to the project again. -/
theorem generate_confined_project :
    let g := projectGenerator ["nodir", ".."]
    let w := Workspace.start projectTree
    ∃ review, Review.ofRequest w.tree (some "Invoice") classesOnly g.config = .ok review ∧
      review.hasErrors = false ∧
        (∀ p ∈ g.routeFiles "Invoice" classesOnly ++ g.ownFiles "Invoice" classesOnly,
            ∃ q : Path, q.isAbsolute = false ∧ q.climbs = false ∧ p = g.config.basePath.append q) ∧
          Leaves (g.Confined "Invoice" classesOnly w.tree) (g.generate "Invoice" classesOnly 0) w := by
  intro g w
  have haccepts : Review.accepts w.tree (some "Invoice") classesOnly g.config = true := by
    decide +kernel
  obtain ⟨review, hreview, herrors⟩ := Review.accepts_eq_true haccepts
  exact ⟨review, hreview, herrors, generate_confined g "Invoice" classesOnly 0 w hreview herrors⟩

end Generator

end Scaffold
