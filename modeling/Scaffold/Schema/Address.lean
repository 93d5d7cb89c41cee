import Scaffold.Text.Lines
import Scaffold.Text.Numeral
import Scaffold.Text.Percent

/-!
Addresses of databases: a dialect, possibly a login, a host and a port, the name of a database and
options. Escapes are resolved in the name and in the options.
-/

namespace Scaffold

/-- Why no connection can be made for an address. -/
inductive AddressFault where
  | unreadable
  /-- Nothing of this name belongs to a group of plugins. -/
  | noPlugin (group name : String)
  /-- A database in a file has neither login nor host. -/
  | notLocal
  /-- A port or an option has no value of its kind. -/
  | badValue (reason : String)
deriving Repr, DecidableEq

def AddressFault.reason (url : String) : AddressFault → String
  | unreadable => "Could not parse SQLAlchemy URL from given URL string"
  | noPlugin group name => s!"Can't load plugin: sqlalchemy.{group}:{name}"
  | notLocal =>
    s!"Invalid SQLite URL: {url}\nValid SQLite URL forms are sqlite:///:memory: or " ++
      "sqlite:////absolute/path/to/file.db"
  | badValue reason => reason

def AddressFault.message (url : String) (fault : AddressFault) : String :=
  "Cannot create engine for " ++ Text.display url ++ ": " ++ fault.reason url

structure Address where
  dialect : String
  /-- Whether a user, a password or a host is named. -/
  isRemote : Bool
  port : Option Int
  database : String
  /-- The options with a value, in order. -/
  options : List (String × String)
deriving Repr, DecidableEq

namespace Address

def isDialectChar (c : Char) : Bool :=
  c.isAlphanum || c == '_' || c == '+' || 127 < c.toNat

/-- What stands before the last `c`, and what stands behind it. -/
def splitLast? (c : Char) (cs : List Char) : Option (List Char × List Char) :=
  let behind := cs.reverse.takeWhile (· ≠ c)
  match cs.reverse.drop behind.length with
  | [] => none
  | _ :: before => some (before.reverse, behind.reverse)

/-- Passes a user and a password, if an at sign follows them; whether either of them is named. -/
def login (cs : List Char) : Bool × List Char :=
  let user := cs.takeWhile fun c => c ≠ ':' && c ≠ '/'
  let rest := cs.drop user.length
  let password := (rest.drop 1).takeWhile (· ≠ '@')
  match rest, (rest.drop 1).drop password.length with
  | ':' :: _, _ :: rest => (!user.isEmpty || !password.isEmpty, rest)
  | _, _ =>
    match splitLast? '@' user with
    | some (user, more) => (!user.isEmpty, more ++ rest)
    | none => (false, cs)

/-- Passes a host, which may stand in brackets; whether one is named. -/
def host (cs : List Char) : Bool × List Char :=
  let inner := (cs.drop 1).takeWhile fun c => c ≠ '/' && c ≠ '?'
  match cs.head?, splitLast? ']' inner with
  | some '[', some (_ :: _, more) => (true, more ++ cs.drop (1 + inner.length))
  | _, _ =>
    let plain := cs.takeWhile fun c => c ≠ '/' && c ≠ ':' && c ≠ '?'
    (!plain.isEmpty, cs.drop plain.length)

/-- Reads a port behind a colon. -/
def readPort (cs : List Char) : Except AddressFault (Option Int × List Char) :=
  match cs with
  | ':' :: cs =>
    let digits := cs.takeWhile fun c => c ≠ '/' && c ≠ '?'
    match Text.integerIn 10 digits with
    | .ok n => .ok (some n, cs.drop digits.length)
    | .error fault => .error (.badValue fault.message)
  | cs => .ok (none, cs)

/-- An option of an address; one without a value does not count. -/
def option? (cs : List Char) : Option (String × String) :=
  let name := cs.takeWhile (· ≠ '=')
  let value := cs.drop (name.length + 1)
  let read (cs : List Char) :=
    Text.Percent.decode (.ofList (cs.map fun c => if c = '+' then ' ' else c))
  if value.isEmpty then none else some (read name, read value)

/-- The options behind a question mark. -/
def readOptions : List Char → List (String × String)
  | '?' :: cs => (Text.splitAtChar '&' (cs.takeWhile (· ≠ '\n'))).filterMap option?
  | _ => []

/-- Reads an address. -/
def ofString (url : String) : Except AddressFault Address := do
  let dialect := url.toList.takeWhile isDialectChar
  match dialect, url.toList.drop dialect.length with
  | _ :: _, ':' :: '/' :: '/' :: rest => do
    let (hasLogin, rest) := login rest
    let (hasHost, rest) := host rest
    let (port, rest) ← readPort rest
    let name := match rest with
      | '/' :: cs => cs.takeWhile (· ≠ '?')
      | _ => []
    let rest := if rest.head? = some '/' then rest.drop (name.length + 1) else rest
    pure
      { dialect := .ofList dialect, isRemote := hasLogin || hasHost, port
        database := Text.Percent.decode (.ofList name), options := readOptions rest }
  | _, _ => throw .unreadable

end Address

end Scaffold
