import Scaffold.Proofs.Run.Lookup
import Scaffold.Proofs.Tree.Grounded

/-!
# Rendering from the packaged templates

Where a project has no templates of its own, a packaged template can always be rendered, and from its own text
(`Under.wp_render`): nothing that a run writes takes its place, and what the run remembers of it is its text.
-/

namespace Scaffold
open Renderer (firstFile?)

variable {r : Renderer} {t₀ : Tree} {S : Location → Prop} {w : Workspace} {a : String × String}

/-- The packaged templates can be read in `t₀`, the project has none of its own, and the files at `S` are none
of them. -/
structure Renderer.Stock (r : Renderer) (t₀ : Tree) (S : Location → Prop) : Prop where
  short : ∀ a ∈ Stubs.packaged, ∀ p ∈ r.places a.1, Tree.Short p
  read : ∀ a ∈ Stubs.packaged, t₀.readText (r.default / a.1) = .ok a.2
  none : ∀ a ∈ Stubs.packaged, ∀ root ∈ r.override, ∀ mode bytes,
    t₀.entryAt ((root / a.1).resolveFrom t₀.home) ≠ some (.file mode bytes)
  free : ∀ a ∈ Stubs.packaged, ∀ p ∈ r.places a.1, ¬ S (p.resolveFrom t₀.home)

/-- What is remembered of the packaged templates is their texts. -/
def Renderer.Faithful (r : Renderer) (cache : List (Path × String)) : Prop :=
  ∀ a ∈ Stubs.packaged, ∀ s, cache.lookup (r.default / a.1) = some s → s = a.2

/-- What holds of a workspace while the files at `S` are written. -/
structure Under (r : Renderer) (t₀ : Tree) (S : Location → Prop) (w : Workspace) : Prop where
  built : Built t₀ S w.tree
  cache : r.Faithful w.cache

namespace Renderer

/-- Nothing is remembered at first. -/
theorem faithful_start (r : Renderer) (t : Tree) : r.Faithful (Workspace.start t).cache :=
  fun _ _ _ hs => by cases hs

theorem places_eq (r : Renderer) (id : String) :
    r.places id = r.override.toList.map (· / id) ++ [r.default / id] := by
  rw [places, roots, List.map_append]
  rfl

theorem default_mem_places (r : Renderer) (id : String) : r.default / id ∈ r.places id := by
  rw [places_eq]
  exact List.mem_append_right _ (List.mem_singleton_self _)

theorem firstFile?_of_none {t : Tree} {ps : List Path} {q : Path} (h : ∀ p ∈ ps, t.isFile p = .ok false)
    (hq : t.isFile q = .ok true) : firstFile? t (ps ++ [q]) = .ok (some q) := by
  induction ps with
  | nil => rw [List.nil_append, firstFile?_cons hq, if_pos rfl]
  | cons p ps ih =>
    rw [List.cons_append, firstFile?_cons (h p (List.mem_cons_self ..))]
    exact ih fun p hp => h p (List.mem_cons_of_mem _ hp)

end Renderer

namespace Under

theorem logFree : LogFree (Under r t₀ S) :=
  fun _ _ h => ⟨h.built, h.cache⟩

variable (h : Under r t₀ S w) (hs : r.Stock t₀ S) (ha : a ∈ Stubs.packaged)
include h hs ha

theorem readText : w.tree.readText (r.default / a.1) = .ok a.2 :=
  h.built.frame.readText (hs.free a ha _ (r.default_mem_places a.1)) (hs.read a ha)

/-- No file stands in the project's own directory of templates, now either: it would be an old one, or one of those
that are written. -/
theorem none_own {p : Path} (hp : p ∈ r.override.toList.map (· / a.1)) (mode : Nat) (bytes : ByteArray) :
    w.tree.entryAt (p.resolveFrom w.tree.home) ≠ some (.file mode bytes) := fun hentry => by
  have hplace : p ∈ r.places a.1 := by
    rw [r.places_eq]
    exact List.mem_append_left _ hp
  obtain ⟨root, hroot, rfl⟩ := List.mem_map.1 hp
  rw [h.built.frame.grows.home] at hentry
  rcases h.built.frame.fresh _ mode bytes hentry with ⟨mode₀, bytes₀, hold⟩ | hnew
  · exact absurd hold (hs.none a ha root (Option.mem_toList.1 hroot) mode₀ bytes₀)
  · exact absurd hnew (hs.free a ha _ hplace)

theorem isFile_own {p : Path} (hp : p ∈ r.override.toList.map (· / a.1)) : w.tree.isFile p = .ok false := by
  have hplace : p ∈ r.places a.1 := by
    rw [r.places_eq]
    exact List.mem_append_left _ hp
  obtain ⟨there, hthere⟩ := Tree.isFile_ok (hs.short a ha _ hplace) w.tree
  cases there with
  | false => exact hthere
  | true =>
    obtain ⟨mode, bytes, -, hfind⟩ := Tree.isFile_eq_true.1 hthere
    exact absurd (Tree.find_eq_resolve hfind) (h.none_own hs ha hp mode bytes)

theorem isFile_default : w.tree.isFile (r.default / a.1) = .ok true :=
  Tree.isFile_of_readText (h.readText hs ha)

theorem not_garbled {p : Path} (hp : p ∈ r.places a.1) : ¬ w.tree.Garbled p := by
  rw [r.places_eq] at hp
  rcases List.mem_append.1 hp with hp | hp
  · exact fun ⟨mode, bytes, hentry, _⟩ => h.none_own hs ha hp mode bytes hentry
  · rw [List.mem_singleton.1 hp]
    exact Tree.not_garbled_of_readText (h.readText hs ha)

theorem wp_render (subs : List (String × String)) :
    wp (r.render a.1 subs)
      (fun content w' => content = Template.fill a.2 subs ∧ w'.tree = w.tree ∧ Under r t₀ S w')
      (fun _ _ => False) w := by
  have hread := h.readText hs ha
  have hdefault := h.isFile_default hs ha
  have hfirst : Renderer.firstFile? w.tree (r.places a.1) = .ok (some (r.default / a.1)) := by
    rw [r.places_eq]
    exact Renderer.firstFile?_of_none (fun p => h.isFile_own hs ha) hdefault
  obtain ⟨content, w', hrender, -⟩ := wp_returns <| @Renderer.render_ok _ r a.1 subs w (hs.short a ha)
    (fun p hp hfile => by
      rw [r.places_eq] at hp
      rcases List.mem_append.1 hp with hp | hp
      · rw [h.isFile_own hs ha hp] at hfile
        cases hfile
      · rw [List.mem_singleton.1 hp]
        exact ⟨a.2, hread⟩) (r.default_mem_places a.1) hdefault
  rw [wp_ok hrender]
  obtain @⟨q, text, w', htree, hfound, hsource⟩ := (wp_ok hrender).1 (Renderer.wp_render r a.1 subs w)
  rw [hfirst] at hfound
  obtain rfl : r.default / a.1 = q := Option.some.inj (Except.ok.inj hfound)
  rcases hsource with ⟨hlookup, hcache⟩ | ⟨htext, hcache⟩
  · rw [h.cache a ha text hlookup]
    exact ⟨rfl, htree, htree ▸ h.built, hcache ▸ h.cache⟩
  · obtain rfl : a.2 = text := Except.ok.inj (hread.symm.trans htext)
    refine ⟨rfl, htree, htree ▸ h.built, fun b hb s hlookup => ?_⟩
    rw [hcache, List.lookup_cons] at hlookup
    split at hlookup
    · next heq =>
      cases hlookup
      rw [← eq_of_beq heq, h.readText hs hb] at hread
      exact (Except.ok.inj hread).symm
    · exact h.cache b hb s hlookup

end Under

end Scaffold
