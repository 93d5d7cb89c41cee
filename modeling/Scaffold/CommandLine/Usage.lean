import Scaffold.CommandLine.Switch

/-!
What the command line says about itself.
-/

namespace Scaffold.CommandLine

/-- The name of the program. -/
def program : String := "smartcrud"

/-- Lines as text. -/
def textOf (lines : List String) : String :=
  .join (lines.map (· ++ "\n"))

def versionText : String :=
  program ++ " 1.0.0\n"

/-- The lines that show how the program is called. -/
def usageLines : List String :=
  ["usage: smartcrud [-h] [--api] [--web] [-f] [--api-version VERSION]",
   "                 [--skip-common] [--skip-routes] [--skip-views] [-c FILE]",
   "                 [--database-url URL] [--base-path DIR] [-v | -q] [--version]",
   "                 NAME"]

/-- The lines that explain the switches. -/
def helpLines : List String :=
  ["",
   "SmartCRUD - Laravel CRUD scaffold generator.",
   "",
   "Generates services, repositories, DTOs, controllers, form requests, resources, views and route registrations for one entity, following the table layout when a database is reachable.",
   "",
   "positional arguments:",
   "  NAME                  Entity name, e.g. Invoice or invoice_line.",
   "",
   "options:",
   "  -h, --help            show this help message and exit",
   "  --version             show program's version number and exit",
   "",
   "Categories:",
   "  --api                 Generate API artifacts (default when neither --api nor",
   "                        --web is given).",
   "  --web                 Generate web artifacts (controller, requests, views,",
   "                        routes).",
   "",
   "Generation:",
   "  -f, --force           Overwrite existing files.",
   "  --api-version VERSION",
   "                        API version namespace segment (default: from config,",
   "                        V1).",
   "  --skip-common         Do not generate service, repository, DTOs and",
   "                        exception.",
   "  --skip-routes         Do not register routes.",
   "  --skip-views          Do not generate Blade views.",
   "",
   "Project:",
   "  -c FILE, --config FILE",
   "                        YAML configuration file.",
   "  --database-url URL    SQLAlchemy database URL used to introspect the",
   "                        entity's table.",
   "  --base-path DIR       Project root (default: from config, current",
   "                        directory).",
   "",
   "Output:",
   "  -v, --verbose         Increase log verbosity (-v INFO, -vv DEBUG).",
   "  -q, --quiet           Only print the report.",
   "",
   "Examples:",
   "  smartcrud Invoice",
   "  smartcrud Invoice --api --web --database-url sqlite:///db.sqlite",
   "  smartcrud Invoice --api-version V2 --skip-common --force"]

def helpText : String :=
  textOf (usageLines ++ helpLines)

/-- What is said about a refused command line. -/
def UsageFault.text (fault : UsageFault) : String :=
  textOf (usageLines ++ [program ++ ": error: " ++ fault.message])

end Scaffold.CommandLine
