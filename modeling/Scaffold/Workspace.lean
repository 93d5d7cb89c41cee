import Scaffold.Schema
import Scaffold.Tree.Edit

/-!
What a run works on: the file system, the databases in it, and what the run leaves behind besides
files, namely a log, the questions it asked, the templates it read and the files it wrote. An action
changes the workspace and may fail; what it did before it failed stays done.
-/

namespace Scaffold

inductive LogLevel where
  | debug
  | info
  | warning
  | error
deriving Repr, DecidableEq

namespace LogLevel

def name : LogLevel → String
  | debug => "DEBUG"
  | info => "INFO"
  | warning => "WARNING"
  | error => "ERROR"

/-- How much a line of this level matters. -/
def weight : LogLevel → Nat
  | debug => 1
  | info => 2
  | warning => 3
  | error => 4

end LogLevel

structure LogLine where
  level : LogLevel
  source : String
  message : String
deriving Repr, DecidableEq

/-- The line as it is printed, the level filled up to eight characters. -/
def LogLine.text (l : LogLine) : String :=
  let level := l.level.name
  level ++ .ofList (List.replicate (8 - level.length) ' ') ++ " │ " ++ l.source ++ " │ " ++ l.message

structure Workspace where
  tree : Tree
  /-- The tables of the database files. -/
  databases : List (Location × List Table)
  /-- The database files that are open, with what they held if they were taken away since. -/
  opened : List (Location × Option Backend)
  /-- The newest line comes first. -/
  log : List LogLine
  /-- The questions that were asked of a backend, with the table; the newest comes first. -/
  queries : List (String × String)
  /-- The templates that were read, by their files. -/
  cache : List (Path × String)
  /-- The files that were written, in order. -/
  records : List WrittenFile

/-- The workspace of a program that just started. -/
def Workspace.start (tree : Tree) : Workspace :=
  ⟨tree, [], [], [], [], [], []⟩

/-- The workspace of a program that starts where another one ended: the files are still there. -/
def Workspace.restarted (w : Workspace) : Workspace :=
  { Workspace.start w.tree with databases := w.databases }

abbrev Action := EStateM Fault Workspace

namespace Action

/-- Writes a line to the log. -/
def say (level : LogLevel) (source message : String) : Action Unit :=
  modify fun w => { w with log := ⟨level, source, message⟩ :: w.log }

/-- Looks at the file system. -/
def look (f : Tree → Except Fault α) : Action α := fun w =>
  match f w.tree with
  | .ok a => .ok a w
  | .error fault => .error fault w

/-- Changes the file system. -/
def edit (e : Edit α) : Action α := fun w =>
  match e w.tree with
  | .ok a t => .ok a { w with tree := t }
  | .error fault t => .error fault { w with tree := t }

/-- Fails if `r` is a fault. -/
def ofExcept (r : Except Fault α) : Action α := fun w =>
  match r with
  | .ok a => .ok a w
  | .error fault => .error fault w

/-- Closes all databases. -/
def closeDatabases : Action Unit :=
  modify fun w => { w with opened := [] }

/-- Forgets the templates that were read. -/
def forgetTemplates : Action Unit :=
  modify fun w => { w with cache := [] }

end Action

end Scaffold
