import Scaffold.Text.Display
import Scaffold.Text.Search

/-!
The switches of the command line, and what can be wrong with a list of arguments.
-/

namespace Scaffold.CommandLine

inductive Switch where
  | help
  | api
  | web
  | force
  | apiVersion
  | skipCommon
  | skipRoutes
  | skipViews
  | config
  | databaseUrl
  | basePath
  | verbose
  | quiet
  | version
deriving Repr, DecidableEq

namespace Switch

/-- All switches, in the order in which messages list them. -/
def all : List Switch :=
  [help, api, web, force, apiVersion, skipCommon, skipRoutes, skipViews, config, databaseUrl,
   basePath, verbose, quiet, version]

def spellings : Switch → List String
  | help => ["-h", "--help"]
  | api => ["--api"]
  | web => ["--web"]
  | force => ["-f", "--force"]
  | apiVersion => ["--api-version"]
  | skipCommon => ["--skip-common"]
  | skipRoutes => ["--skip-routes"]
  | skipViews => ["--skip-views"]
  | config => ["-c", "--config"]
  | databaseUrl => ["--database-url"]
  | basePath => ["--base-path"]
  | verbose => ["-v", "--verbose"]
  | quiet => ["-q", "--quiet"]
  | version => ["--version"]

/-- Whether a value follows the switch. -/
def takesValue (s : Switch) : Bool :=
  [apiVersion, config, databaseUrl, basePath].contains s

/-- Every spelling with its switch. -/
def table : List (String × Switch) :=
  all.flatMap fun s => s.spellings.map (·, s)

def ofSpelling? (text : String) : Option Switch :=
  table.lookup text

/-- The switch as messages name it. -/
def label (s : Switch) : String :=
  "/".intercalate s.spellings

theorem mem_all (s : Switch) : s ∈ all := by
  cases s <;> decide

/-- No spelling stands for two switches. -/
theorem nodup_spellings : (table.map Prod.fst).Nodup := by decide

end Switch

/-- Why a list of arguments is refused. -/
inductive UsageFault where
  | ambiguous (word : String) (candidates : List String)
  | unwantedValue (s : Switch) (value : String)
  | valueMissing (s : Switch)
  | conflict (s earlier : Switch)
  | nameMissing
  | unrecognized (words : List String)
deriving Repr, DecidableEq

def UsageFault.message : UsageFault → String
  | ambiguous word candidates =>
    s!"ambiguous option: {word} could match " ++ ", ".intercalate candidates
  | unwantedValue s value => s!"argument {s.label}: ignored explicit argument " ++ Text.display value
  | valueMissing s => s!"argument {s.label}: expected one argument"
  | conflict s earlier => s!"argument {s.label}: not allowed with argument {earlier.label}"
  | nameMissing => "the following arguments are required: NAME"
  | unrecognized words => "unrecognized arguments: " ++ " ".intercalate words

end Scaffold.CommandLine
