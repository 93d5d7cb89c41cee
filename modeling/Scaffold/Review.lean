import Scaffold.Name.Style
import Scaffold.Value

/-!
Reviews. A check reports what it finds as a list of findings; a request may go on unless one of them
is an error.
-/

namespace Scaffold

inductive Severity where
  | error
  | warning
  | info
deriving Repr, DecidableEq

def Severity.name : Severity → String
  | .error => "error"
  | .warning => "warning"
  | .info => "info"

structure Finding where
  severity : Severity
  code : String
  message : String
  context : Value := .map []

/-- The finding on one line. -/
def Finding.text (f : Finding) : String :=
  "[" ++ Name.upper f.severity.name ++ "] " ++ f.code ++ ": " ++ f.message

/-- Findings, in the order in which they were made. -/
abbrev Review := List Finding

namespace Review

def errors (r : Review) : List Finding :=
  r.filter (·.severity = .error)

def warnings (r : Review) : List Finding :=
  r.filter (·.severity = .warning)

def hasErrors (r : Review) : Bool :=
  r.any (·.severity = .error)

def summary (r : Review) : String :=
  s!"Validation: {r.errors.length} error(s), {r.warnings.length} warning(s)."

/-- The summary and, below it, the findings; notes only if asked for. -/
def report (r : Review) (notes : Bool) : String :=
  let shown := r.filter fun f => notes || f.severity ≠ .info
  "\n".intercalate (r.summary :: shown.map fun f => "  " ++ f.text)

/-- The summary in angle brackets. -/
def shown (r : Review) : String :=
  s!"<ValidationResult {r.summary}>"

/-- One error, with texts that explain it. -/
def error (code message : String) (context : List (String × String)) : Review :=
  [⟨.error, code, message, .map (context.map fun (k, v) => (.text k, .text v))⟩]

/-- One warning, with texts that explain it. -/
def warning (code message : String) (context : List (String × String)) : Review :=
  [⟨.warning, code, message, .map (context.map fun (k, v) => (.text k, .text v))⟩]

/-- One note. -/
def note (code message : String) : Review :=
  [⟨.info, code, message, .map []⟩]

end Review

end Scaffold
