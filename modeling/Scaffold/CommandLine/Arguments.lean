import Scaffold.CommandLine.Word

/-!
What a command line asks for. Switches are taken in order; the first plain word that is no value of a
switch is the name, and further ones are refused at the end, as are unknown switches. Two dashes that
are attached to a switch as its value leave it without one.
-/

namespace Scaffold.CommandLine

structure Arguments where
  name : String := ""
  api : Bool := false
  web : Bool := false
  force : Bool := false
  /-- The version, if the switch is given; it may be given without a value. -/
  apiVersion : Option (Option String) := none
  skipCommon : Bool := false
  skipRoutes : Bool := false
  skipViews : Bool := false
  config : Option String := none
  databaseUrl : Option String := none
  basePath : Option String := none
  verbose : Nat := 0
  quiet : Bool := false
deriving Repr, DecidableEq

/-- Why a command line is no request for an entity. -/
inductive Halt where
  | help
  | version
  | refused (fault : UsageFault)
deriving Repr, DecidableEq

/-- What was read so far. -/
structure Reading where
  arguments : Arguments := {}
  named : Bool := false
  /-- The words that mean nothing. -/
  extras : List String := []
deriving Repr, DecidableEq

namespace Arguments

/-- Takes a switch with its value, if it has one. -/
def take (s : Switch) (value : Option String) (a : Arguments) : Except Halt Arguments :=
  match s with
  | .help => .error .help
  | .version => .error .version
  | .api => .ok { a with api := true }
  | .web => .ok { a with web := true }
  | .force => .ok { a with force := true }
  | .apiVersion => .ok { a with apiVersion := some value }
  | .skipCommon => .ok { a with skipCommon := true }
  | .skipRoutes => .ok { a with skipRoutes := true }
  | .skipViews => .ok { a with skipViews := true }
  | .config => .ok { a with config := value }
  | .databaseUrl => .ok { a with databaseUrl := value }
  | .basePath => .ok { a with basePath := value }
  | .verbose =>
    if a.quiet then .error (.refused (.conflict .verbose .quiet))
    else .ok { a with verbose := a.verbose + 1 }
  | .quiet =>
    if 0 < a.verbose then .error (.refused (.conflict .quiet .verbose))
    else .ok { a with quiet := true }

/-- The switches of one word, each with its value. -/
structure Cluster where
  taken : List (Switch × Option String) := []
  /-- The last switch, if its value is still to come. -/
  waiting : Option Switch := none

/-- The value that is attached to a switch. -/
def attached (text : String) : Option String :=
  if text = "--" then none else some text

/-- A switch with a value after an equals sign. -/
def withValue (s : Switch) (text : String) : Except UsageFault Cluster :=
  if s.takesValue then .ok { taken := [(s, attached text)] } else .error (.unwantedValue s text)

/-- A switch with letters behind it: they are its value, or else each of them is a switch. -/
def withLetters (s : Switch) : List Char → Except UsageFault Cluster
  | [] => .ok (if s.takesValue then { waiting := some s } else { taken := [(s, none)] })
  | c :: more =>
    let text := String.ofList (c :: more)
    if s.takesValue then .ok { taken := [(s, attached text)] }
    else match Switch.ofSpelling? (.ofList ['-', c]) with
      | none => .error (.unwantedValue s text)
      | some next => do
        let k ← withLetters next more
        pure { k with taken := (s, none) :: k.taken }

/-- Reads the rest of a word behind a switch. -/
def cluster (s : Switch) : Tail → Except UsageFault Cluster
  | .nothing => withLetters s []
  | .value text => withValue s text
  | .letters cs => withLetters s cs

/-- A word that means nothing. -/
def extra (text : String) (r : Reading) : Reading :=
  { r with extras := r.extras ++ [text] }

/-- A plain word: the first one is the name. -/
def plain (text : String) (r : Reading) : Reading :=
  if r.named then extra text r
  else { r with named := true, arguments := { r.arguments with name := text } }

/-- Takes switches in order. -/
def takeAll (taken : List (Switch × Option String)) (r : Reading) : Except Halt Reading := do
  let a ← taken.foldlM (fun a (s, value) => take s value a) r.arguments
  pure { r with arguments := a }

/-- Reads words in order. A delimiter right before or right after the name goes with it. -/
def read (r : Reading) : List Word → Except Halt Reading
  | [] => .ok r
  | .plain text :: rest =>
    match rest, r.named with
    | .delimiter :: rest, false => read (plain text r) rest
    | rest, _ => read (plain text r) rest
  | .delimiter :: rest => read (if r.named || rest.isEmpty then extra "--" r else r) rest
  | .unknown text :: rest => read (extra text r) rest
  | .switch s tail :: rest => do
    let k ← (cluster s tail).mapError .refused
    match k.waiting, rest with
    | none, rest => read (← takeAll k.taken r) rest
    | some last, .plain text :: rest => read (← takeAll (k.taken ++ [(last, some text)]) r) rest
    | some last, _ => throw (.refused (.valueMissing last))

/-- The request of a command line. -/
def parse (words : List String) : Except Halt Arguments := do
  let ws ← (Word.ofArguments words).mapError .refused
  let r ← read {} ws
  if !r.named then throw (.refused .nameMissing)
  if !r.extras.isEmpty then throw (.refused (.unrecognized r.extras))
  pure r.arguments

end Arguments

end Scaffold.CommandLine
