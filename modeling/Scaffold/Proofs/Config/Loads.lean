import Scaffold.CommandLine
import Scaffold.Proofs.Tree.Read
import Scaffold.Proofs.Wp

/-!
# What comes of a configuration file

`Config.Loads` says for the bytes of a file whether they are a configuration, and with which fault they are refused if
they are not. Two kinds of fault are none of a configuration (`Config.Escapes`): bytes that are no text, and those that
the YAML reader lets out besides its own. `CommandLine.run_configured` follows both kinds to the end of a run.
-/

namespace Scaffold
variable {t : Tree} {p : Path} {bytes : ByteArray} {text : String} {f : Fault} {w : Workspace}

/-- The faults that are announced for a configuration that cannot be read or used. -/
inductive Fault.OfConfig : Fault → Prop
  | missing (path : String) : OfConfig (.configMissing path)
  | unparsable (path : String) : OfConfig (.configUnparsable path)
  | notMapping (found : String) : OfConfig (.configNotMapping found)
  | invalid (problems : List Problem) : OfConfig (.configInvalid problems)

theorem Tree.isFile_of_readBytes (h : t.readBytes p = .ok bytes) : t.isFile p = .ok true := by
  unfold readBytes at h
  split at h
  · cases h
  next hnull =>
  split at h <;> cases h
  next mode hfind => exact isFile_eq_true.2 ⟨mode, bytes, Bool.eq_false_iff.2 hnull, hfind⟩

theorem Fault.OfConfig.isOwn (h : f.OfConfig) : f.isOwn = true := by
  cases h <;> rfl

namespace Config
variable {v : Value} {pairs : List (Value × Value)} {r : Except Fault Config}

/-- The text of a file. -/
def Decodes (bytes : ByteArray) (text : String) : Prop :=
  ∃ s, String.fromUTF8? bytes = some s ∧ .ofList (Text.unifyNewlines s.toList) = text

/-- The faults of reading a file that are not announced. -/
inductive Escapes (bytes : ByteArray) : Fault → Prop
  | garbled (invalid : String.fromUTF8? bytes = none) : Escapes bytes .notUtf8
  | scalar {text : String} {fault : ScalarFault} (decodes : Decodes bytes text)
      (fails : Yaml.value text = .error (.scalar fault)) : Escapes bytes (.badScalar fault)

/-- The mapping that a document is. Without a document it is empty. -/
def mapping? : Value → Option (List (Value × Value))
  | .null => some []
  | .map pairs => some pairs
  | _ => none

/-- The configuration of a file at `p`, with its base path seen from there if the file gives one. -/
def placed (p : Path) (pairs : List (Value × Value)) (c : Config) : Config :=
  if (Value.lookup "base_path" pairs).isSome then { c with basePath := p.parent.append c.basePath } else c

/-- What comes of the bytes of a configuration file at `p`. -/
inductive Loads (p : Path) (bytes : ByteArray) : Except Fault Config → Prop
  | escaped {f : Fault} (escapes : Escapes bytes f) : Loads p bytes (.error f)
  | unparsable {text : String} (decodes : Decodes bytes text) (fails : Yaml.value text = .error .malformed) :
      Loads p bytes (.error (.configUnparsable p.toString))
  | notMapping {text : String} {v : Value} (decodes : Decodes bytes text) (reads : Yaml.value text = .ok v)
      (other : mapping? v = none) : Loads p bytes (.error (.configNotMapping v.typeName))
  | invalid {text : String} {v : Value} {pairs : List (Value × Value)} {problems : List Problem}
      (decodes : Decodes bytes text) (reads : Yaml.value text = .ok v) (mapping : mapping? v = some pairs)
      (refused : schema.read (.map pairs) = .error problems) : Loads p bytes (.error (.configInvalid problems))
  | loaded {text : String} {v : Value} {pairs : List (Value × Value)} {c : Config} (decodes : Decodes bytes text)
      (reads : Yaml.value text = .ok v) (mapping : mapping? v = some pairs)
      (accepted : schema.read (.map pairs) = .ok c) : Loads p bytes (.ok (placed p pairs c))

/-- The fault of a file that is not loaded is one of a configuration, or escapes. -/
theorem Loads.ofConfig (h : Loads p bytes (.error f)) : f.OfConfig ∨ Escapes bytes f := by
  cases h with
  | escaped escapes => exact .inr escapes
  | unparsable => exact .inl (.unparsable _)
  | notMapping => exact .inl (.notMapping _)
  | invalid => exact .inl (.invalid _)

theorem Escapes.not_ofConfig (h : Escapes bytes f) : ¬ f.OfConfig := by
  cases h <;> exact nofun

theorem Escapes.not_isOwn (h : Escapes bytes f) : f.isOwn = false := by
  cases h <;> rfl

section Reading

theorem pairsOfText_ok (h : Yaml.value text = .ok v) :
    pairsOfText p text = (mapping? v).elim (.error (.configNotMapping v.typeName)) .ok := by
  unfold pairsOfText
  rw [h]
  cases v <;> rfl

theorem ofText_of_error (h : pairsOfText p text = .error f) : ofText p text = .error f := by
  unfold ofText
  rw [h]
  rfl

theorem ofText_of_pairs (h : pairsOfText p text = .ok pairs) :
    ofText p text = (ofValue (.map pairs)).map (placed p pairs) := by
  unfold ofText placed
  simp only [h, bind, Except.bind]
  cases ofValue (.map pairs) with
  | error f => rfl
  | ok c => simp only [Except.map]; split <;> rfl

theorem loads_ofText (hdecodes : Decodes bytes text) : Loads p bytes (ofText p text) := by
  cases hread : Yaml.value text with
  | error refusal =>
    cases refusal with
    | malformed =>
      rw [ofText_of_error (f := .configUnparsable p.toString) (by rw [pairsOfText, hread])]
      exact .unparsable hdecodes hread
    | scalar fault =>
      rw [ofText_of_error (f := .badScalar fault) (by rw [pairsOfText, hread])]
      exact .escaped (.scalar hdecodes hread)
  | ok v =>
    have hpairs := pairsOfText_ok (p := p) hread
    cases hmapping : mapping? v with
    | none =>
      rw [hmapping] at hpairs
      rw [ofText_of_error hpairs]
      exact .notMapping hdecodes hread hmapping
    | some pairs =>
      rw [hmapping] at hpairs
      rw [ofText_of_pairs hpairs, ofValue]
      cases haccepted : schema.read (.map pairs) with
      | error problems => exact .invalid hdecodes hread hmapping haccepted
      | ok c => exact .loaded hdecodes hread hmapping haccepted

theorem ofFile_of_none (h : t.readBytes p = .ok bytes) (hbytes : String.fromUTF8? bytes = none) :
    ofFile t p = .error .notUtf8 := by
  have htext : t.readText p = .error .notUtf8 := by
    simp only [Tree.readText, h, hbytes, bind, Except.bind, throw, throwThe, MonadExceptOf.throw]
  simp only [ofFile, Tree.isFile_of_readBytes h, htext, bind, Except.bind, if_true]

theorem ofFile_of_decodes (h : t.readBytes p = .ok bytes) (hdecodes : Decodes bytes text) :
    ofFile t p = ofText p text := by
  obtain ⟨s, hs, rfl⟩ := hdecodes
  have htext : t.readText p = .ok (.ofList (Text.unifyNewlines s.toList)) := by
    simp only [Tree.readText, h, hs, bind, Except.bind, pure, Except.pure]
  simp only [ofFile, Tree.isFile_of_readBytes h, htext, bind, Except.bind, if_true]

theorem loads_ofFile (h : t.readBytes p = .ok bytes) : Loads p bytes (ofFile t p) := by
  cases hbytes : String.fromUTF8? bytes with
  | none =>
    rw [ofFile_of_none h hbytes]
    exact .escaped (.garbled hbytes)
  | some s =>
    have hdecodes : Decodes bytes _ := ⟨s, hbytes, rfl⟩
    rw [ofFile_of_decodes h hdecodes]
    exact loads_ofText hdecodes

theorem Escapes.ofFile_eq (h : Escapes bytes f) (hbytes : t.readBytes p = .ok bytes) : ofFile t p = .error f := by
  cases h with
  | garbled invalid => exact ofFile_of_none hbytes invalid
  | scalar decodes fails =>
    rw [ofFile_of_decodes hbytes decodes]
    exact ofText_of_error (by rw [pairsOfText, fails])

end Reading

theorem ending_load (p : Path) (w : Workspace) : Action.ending (load p) w = ofFile w.tree p := by
  refine (Action.wp_ending (P := fun loaded _ => loaded = ofFile w.tree p)).1 ?_
  unfold load
  rw [wp_bind, wp_look]
  cases ofFile w.tree p with
  | error f => rfl
  | ok c => simp only [wp_bind, wp_say, wp_pure]

theorem wp_load_error (h : ofFile w.tree p = .error f) :
    wp (load p) (fun _ _ => False) (fun g w' => g = f ∧ w' = w) w := by
  unfold load
  rw [wp_bind, wp_look, h]
  exact ⟨rfl, rfl⟩

end Config

namespace CommandLine
variable {home : Location} {words : List String} {a : Arguments} {s : String}

/-- How a run ends that cannot load its configuration. -/
inductive Ends (bytes : ByteArray) (f : Fault) : Outcome → Prop
  | refused {log : List LogLine} (own : f.OfConfig) : Ends bytes f ⟨.ok 4, "", s!"Error: {f.message}\n", log⟩
  | escaped {log : List LogLine} (escapes : Config.Escapes bytes f) : Ends bytes f ⟨.error f, "", "", log⟩

theorem wp_reportFault (ending : Ending) (f : Fault) (w : Workspace) :
    wp (reportFault ending f)
      (fun printed w' => f.isOwn = true ∧ printed = ⟨ending, "", s!"Error: {f.message}\n"⟩ ∧ w'.tree = w.tree)
      (fun g w' => f.isOwn = false ∧ g = f ∧ w' = w) w := by
  unfold reportFault
  rw [wp_ite]
  split
  · next hown => simp only [wp_bind, wp_say, wp_pure]; exact ⟨hown, trivial, trivial⟩
  · next hown => rw [wp_throw]; exact ⟨Bool.eq_false_iff.2 hown, rfl, rfl⟩

theorem wp_execute_error (hgiven : given a.config = some s) (hresolve : resolve home s = .ok p)
    (hload : Config.ofFile w.tree p = .error f) (elapsed : Float) :
    wp (execute home a elapsed)
      (fun printed w' => f.isOwn = true ∧ printed = ⟨.badInput, "", s!"Error: {f.message}\n"⟩ ∧ w'.tree = w.tree)
      (fun g w' => f.isOwn = false ∧ g = f ∧ w'.tree = w.tree) w := by
  unfold execute
  rw [wp_bind, hgiven]
  simp only [wp_bind, hresolve, wp_ofExcept', wp_tryCatch, map_eq_pure_bind, wp_pure]
  -- the file is loaded before anything else, so the handler is all that is left of the run
  refine wp_mono (Config.wp_load_error hload) (fun _ _ h => h.elim) ?_
  rintro g w₁ ⟨rfl, rfl⟩
  refine wp_mono (wp_reportFault .badInput g w₁) (fun _ _ h => h) ?_
  rintro _ _ ⟨hown, rfl, rfl⟩
  exact ⟨hown, rfl, rfl⟩

theorem run_error (hparse : Arguments.parse words = .ok a) (hgiven : given a.config = some s)
    (hresolve : resolve home s = .ok p) (hload : Config.ofFile w.tree p = .error f)
    (hf : f.OfConfig ∨ Config.Escapes bytes f) (elapsed : Float) :
    Ends bytes f (run home words elapsed w).1 ∧ (run home words elapsed w).2.tree = w.tree := by
  have hexecute := wp_execute_error (w := w.restarted) hgiven hresolve hload elapsed
  unfold run
  rw [hparse]
  dsimp only
  cases hx : execute home a elapsed w.restarted with
  | ok printed w' =>
    obtain ⟨hown, rfl, htree⟩ := (wp_ok hx).1 hexecute
    refine ⟨.refused (hf.resolve_right fun hescapes => ?_), htree⟩
    rw [hescapes.not_isOwn] at hown
    cases hown
  | error g w' =>
    obtain ⟨hforeign, rfl, htree⟩ := (wp_error hx).1 hexecute
    refine ⟨.escaped (hf.resolve_left fun hconfig => ?_), htree⟩
    rw [hconfig.isOwn] at hforeign
    cases hforeign

/-- A configuration file is loaded, or refused with a fault of a configuration, unless its bytes escape. A run that is
given a file which is not loaded writes nothing; it ends with the exit code 4 where the file is refused, and with the
fault itself where it escapes. -/
theorem run_configured (hbytes : w.tree.readBytes p = .ok bytes) :
    let loaded := Action.ending (Config.load p) w
    Config.Loads p bytes loaded ∧ (∀ f, loaded = .error f ∧ ¬ f.OfConfig ↔ Config.Escapes bytes f) ∧
      ∀ home words elapsed a s f, Arguments.parse words = .ok a → given a.config = some s → resolve home s = .ok p →
        loaded = .error f →
          Ends bytes f (run home words elapsed w).1 ∧ (run home words elapsed w).2.tree = w.tree := by
  intro loaded
  have hloaded : loaded = Config.ofFile w.tree p := Config.ending_load p w
  have hloads : Config.Loads p bytes loaded := hloaded ▸ Config.loads_ofFile hbytes
  have hfault : ∀ f, loaded = .error f → f.OfConfig ∨ Config.Escapes bytes f := fun f hf => (hf ▸ hloads).ofConfig
  refine ⟨hloads, fun f => ⟨fun ⟨hf, hnot⟩ => (hfault f hf).resolve_left hnot, fun hf => ⟨?_, hf.not_ofConfig⟩⟩, ?_⟩
  · rw [hloaded]
    exact hf.ofFile_eq hbytes
  · intro home words elapsed a s f hparse hgiven hresolve hf
    exact run_error hparse hgiven hresolve (hloaded ▸ hf) (hfault f hf) elapsed

section File

/-- A configuration file with the given bytes, and nothing else. -/
def holding (bytes : ByteArray) : Tree :=
  ⟨[], [(["c.yaml"], .file 0o644 bytes)]⟩

def configFile : Path :=
  ⟨.root, ["c.yaml"]⟩

def withConfig : List String :=
  ["Invoice", "--config", "c.yaml"]

/-- A list is no configuration. -/
theorem run_configured_list :
    let w := Workspace.start (holding "[]".toUTF8)
    w.tree.readBytes configFile = .ok "[]".toUTF8 ∧
      Arguments.parse withConfig = .ok { name := "Invoice", config := some "c.yaml" } ∧
        given (some "c.yaml") = some "c.yaml" ∧ resolve [] "c.yaml" = .ok configFile ∧
          Action.ending (Config.load configFile) w = .error (.configNotMapping "list") ∧
            Ends "[]".toUTF8 (.configNotMapping "list") (run [] withConfig 0 w).1 ∧
              (run [] withConfig 0 w).2.tree = w.tree := by
  intro w
  have hbytes : w.tree.readBytes configFile = .ok "[]".toUTF8 := by decide +kernel
  have hparse : Arguments.parse withConfig = .ok { name := "Invoice", config := some "c.yaml" } := by decide +kernel
  have hgiven : given (some "c.yaml") = some "c.yaml" := by decide +kernel
  have hresolve : resolve [] "c.yaml" = .ok configFile := by decide +kernel
  have hloaded : Action.ending (Config.load configFile) w = .error (.configNotMapping "list") := by decide +kernel
  obtain ⟨-, -, hrun⟩ := run_configured hbytes
  exact ⟨hbytes, hparse, hgiven, hresolve, hloaded, hrun [] withConfig 0 _ _ _ hparse hgiven hresolve hloaded⟩

/-- A byte that is no text is not refused as a configuration, and ends the run without an exit code. -/
theorem run_escapes :
    let w := Workspace.start (holding ⟨#[0xff]⟩)
    w.tree.readBytes configFile = .ok ⟨#[0xff]⟩ ∧ Action.ending (Config.load configFile) w = .error .notUtf8 ∧
      ¬ Fault.notUtf8.OfConfig ∧ (run [] withConfig 0 w).1.exit = .error .notUtf8 :=
  ⟨by decide +kernel, by decide +kernel, nofun, by decide +kernel⟩

end File

end CommandLine
end Scaffold
