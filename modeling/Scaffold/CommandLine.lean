import Scaffold.CommandLine.Arguments
import Scaffold.CommandLine.Usage
import Scaffold.Config.Load
import Scaffold.Generator

/-!
The command line: one run for one entity. `run` starts from arguments and a workspace, and gives what
the program prints and its exit code. A configuration that cannot be read ends the run before
anything is written.
-/

namespace Scaffold.CommandLine

/-- How a run ends, unless a fault escapes. -/
inductive Ending where
  | success
  | rejected
  | failed
  | badInput
deriving Repr, DecidableEq

/-- The exit code of the program. -/
def Ending.code : Ending → Nat
  | success => 0
  | rejected => 1
  | failed => 2
  | badInput => 4

/-- What is left of a run besides the files. -/
structure Outcome where
  /-- The exit code, or the fault that ended the program. -/
  exit : Except Fault Nat
  output : String
  /-- What is printed for errors, the log apart. -/
  errors : String
  /-- The lines of the log that are shown. -/
  log : List LogLine

/-- What a run prints, and how it ends. -/
structure Printed where
  ending : Ending
  output : String
  errors : String

namespace Arguments

/-- The least level of the log lines that are shown, if any are. -/
def threshold (a : Arguments) : Option LogLevel :=
  if a.quiet then none
  else match a.verbose with
    | 0 => some .warning
    | 1 => some .info
    | _ => some .debug

/-- Whether a log line is shown. -/
def shows (a : Arguments) (l : LogLine) : Bool :=
  a.threshold.any (·.weight ≤ l.level.weight)

/-- API artifacts are made unless only web artifacts are asked for. A version that is given without a
value is refused. -/
def options (a : Arguments) : Except Fault Options :=
  match a.apiVersion with
  | some none => .error (.invalid [⟨["api_version"], .notText⟩])
  | version => .ok
    { force := a.force
      apiVersion := Options.cleanVersion version.join
      skipCommon := a.skipCommon
      skipRoutes := a.skipRoutes
      skipViews := a.skipViews
      api := a.api || !a.web
      web := a.web }

end Arguments

/-- The text that a switch was given, if it is not empty. -/
def given (value : Option String) : Option String :=
  value.filter fun s => !s.isEmpty

/-- The absolute path that a text names from the working directory `home`. -/
def resolve (home : Location) (s : String) : Except Fault Path :=
  let p := Path.ofString s
  if Tree.hasNull p then .error .nullInPath else .ok (p.resolved home)

/-- The configuration with the settings of the command line in it. -/
def overridden (home : Location) (a : Arguments) (c : Config) : Except Fault Config := do
  let c ← match given a.basePath with
    | none => pure c
    | some s => pure { c with basePath := ← resolve home s }
  pure <| match given a.databaseUrl with
    | none => c
    | some url => { c with databaseUrl := some url }

/-- The configuration of a run, if it can be read. -/
def configuration (home : Location) (a : Arguments) (t : Tree) : Except Fault Config := do
  let c ← match given a.config with
    | none => pure {}
    | some s => Config.ofFile t (← resolve home s)
  overridden home a c

/-- Reports a fault of the program's own making; others escape. -/
def reportFault (ending : Ending) (fault : Fault) : Action Printed :=
  if fault.isOwn then do
    Action.say .error program fault.message
    pure ⟨ending, "", s!"Error: {fault.message}\n"⟩
  else throw fault

/-- How a run with a report ends. -/
def endingOf (r : Report) : Ending :=
  if !r.errors.isEmpty then .rejected else if r.success then .success else .failed

/-- Generates what is asked for, with a configuration. -/
def generate (a : Arguments) (elapsed : Float) (c : Config) : Action Printed := do
  Action.say .info program s!"Entity:    {a.name}"
  Action.say .info program s!"Base path: {c.basePath}"
  let database := if (given c.databaseUrl).isSome then "configured" else "none"
  Action.say .info program s!"Database:  {database}"
  let printed ← tryCatch (do
      let o ← Action.ofExcept a.options
      let r ← (Generator.ofConfig c).generate a.name o elapsed
      pure ⟨endingOf r, r.summary ++ "\n", ""⟩)
    (reportFault .failed)
  if printed.ending = .success then
    Action.say .info program "Generation completed successfully."
  else
    Action.say .error program s!"Generation failed with exit code {printed.ending.code}."
  pure printed

/-- Reads the configuration and generates what is asked for. -/
def execute (home : Location) (a : Arguments) (elapsed : Float) : Action Printed := do
  let read : Action (Except Printed Config) := match given a.config with
    | none => pure (.ok {})
    | some s => do
      let p ← Action.ofExcept (resolve home s)
      tryCatch (.ok <$> Config.load p) fun fault => .error <$> reportFault .badInput fault
  match ← read with
  | .error printed => pure printed
  | .ok c =>
    let c ← Action.ofExcept (overridden home a c)
    generate a elapsed c

/-- The run of the program with the arguments `words`, in the working directory `home`; it is
reported to take `elapsed` seconds. -/
def run (home : Location) (words : List String) (elapsed : Float) (w : Workspace) :
    Outcome × Workspace :=
  let w := w.restarted
  match Arguments.parse words with
  | .error .help => (⟨.ok 0, helpText, "", []⟩, w)
  | .error .version => (⟨.ok 0, versionText, "", []⟩, w)
  | .error (.refused fault) => (⟨.ok 2, "", fault.text, []⟩, w)
  | .ok a =>
    let shown (w : Workspace) := w.log.reverse.filter a.shows
    match execute home a elapsed w with
    | .ok p w => (⟨.ok p.ending.code, p.output, p.errors, shown w⟩, w)
    | .error fault w => (⟨.error fault, "", "", shown w⟩, w)

end Scaffold.CommandLine
