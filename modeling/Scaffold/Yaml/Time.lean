import Scaffold.Value
import Scaffold.Yaml.Cursor

/-!
Timestamps: a day, and after it possibly a time of day with a fraction and a distance from universal
time. `Stamp.ofText?` reads the digits, `Stamp.value` checks what they say.
-/

namespace Scaffold.Yaml

/-- A time of day as written. -/
structure ClockText where
  hour : Nat
  minute : Nat
  second : Nat
  micro : Nat
  /-- Seconds before universal time, if a zone is given. -/
  zone : Option Int

/-- A timestamp as written. -/
structure Stamp where
  year : Nat
  month : Nat
  day : Nat
  /-- Whether month and day have two digits each. -/
  wide : Bool
  clock : Option ClockText

namespace Stamp

/-- The number that ASCII digits write. -/
def natOf (cs : List Char) : Nat :=
  cs.foldl (fun n c => 10 * n + (c.toNat - 48)) 0

/-- Between `least` and `most` digits, as many as there are. -/
def digits? (least most : Nat) (cs : List Char) : Option (List Char × List Char) :=
  let run := (cs.take most).takeWhile Char.isDigit
  if run.length < least then none else some (run, cs.drop run.length)

/-- What follows the character `c`. -/
def after? (c : Char) : List Char → Option (List Char)
  | x :: rest => if x = c then some rest else none
  | [] => none

/-- Millionths of a second from the digits of a fraction; further digits are dropped. -/
def microOf (cs : List Char) : Nat :=
  natOf ((cs ++ List.replicate 6 '0').take 6)

/-- The zone after a time. -/
def zone? (cs : List Char) : Option (Option Int) :=
  match cs.dropWhile isBlank with
  | [] => if cs.isEmpty then some none else none
  | ['Z'] => some (some 0)
  | sign :: rest => do
    guard (sign = '+' || sign = '-')
    let (hours, rest) ← digits? 1 2 rest
    let minutes ← if rest.isEmpty then some [] else do
      let (minutes, rest) ← digits? 2 2 (← after? ':' rest)
      guard rest.isEmpty
      pure minutes
    let seconds : Int := natOf hours * 3600 + natOf minutes * 60
    pure (some (if sign = '-' then -seconds else seconds))

/-- The time of day after a day, with what separates them. -/
def clock? (cs : List Char) : Option ClockText := do
  let rest ← match cs with
    | 'T' :: rest | 't' :: rest => some rest
    | _ =>
      let rest := cs.dropWhile isBlank
      if rest.length < cs.length then some rest else none
  let (hour, rest) ← digits? 1 2 rest
  let (minute, rest) ← digits? 2 2 (← after? ':' rest)
  let (second, rest) ← digits? 2 2 (← after? ':' rest)
  let fraction := match rest with
    | '.' :: rest => rest.takeWhile Char.isDigit
    | _ => []
  let rest := match rest with
    | '.' :: rest => rest.dropWhile Char.isDigit
    | _ => rest
  let zone ← zone? rest
  pure ⟨natOf hour, natOf minute, natOf second, microOf fraction, zone⟩

/-- Reads a timestamp. -/
def ofChars? (cs : List Char) : Option Stamp := do
  let (year, rest) ← digits? 4 4 cs
  let (month, rest) ← digits? 1 2 (← after? '-' rest)
  let (day, rest) ← digits? 1 2 (← after? '-' rest)
  let clock ← if rest.isEmpty then some none else (clock? rest).map some
  pure ⟨natOf year, natOf month, natOf day, month.length = 2 && day.length = 2, clock⟩

/-- Reads a timestamp, behind which a line may end. -/
def ofText? (s : String) : Option Stamp :=
  ofChars? (dropFinalBreak s.toList)

/-- Whether a plain scalar is a timestamp: a day alone needs two digits for month and day. -/
def isPlain (s : String) : Bool :=
  (ofChars? s.toList).any fun t => t.wide || t.clock.isSome

def isLeap (year : Nat) : Bool :=
  year % 4 = 0 && (year % 100 ≠ 0 || year % 400 = 0)

def monthLength (year month : Nat) : Nat :=
  if month = 2 then if isLeap year then 29 else 28
  else if [4, 6, 9, 11].contains month then 30
  else 31

/-- The reason why a zone is refused: a day or more from universal time. -/
def zoneFlaw? (zone : Int) : Option String :=
  if zone.natAbs < 86400 then none
  else
    let days := Int.fdiv zone 86400
    let rest := Int.fmod zone 86400
    let seconds := if rest = 0 then "" else s!", seconds={rest}"
    some ("offset must be a timedelta strictly between -timedelta(hours=24) and timedelta(hours=24), " ++
      s!"not datetime.timedelta(days={days}{seconds}).")

/-- The first reason why the digits name no time. -/
def flaw? (t : Stamp) : Option String :=
  let clock := t.clock
  if let some reason := (clock.bind (·.zone)).bind zoneFlaw? then some reason
  else if t.year = 0 then some "year 0 is out of range"
  else if t.month = 0 || 12 < t.month then some "month must be in 1..12"
  else if t.day = 0 || monthLength t.year t.month < t.day then some "day is out of range for month"
  else if clock.any (23 < ·.hour) then some "hour must be in 0..23"
  else if clock.any (59 < ·.minute) then some "minute must be in 0..59"
  else if clock.any (59 < ·.second) then some "second must be in 0..59"
  else none

def value (t : Stamp) : Except Refusal Value :=
  match t.flaw? with
  | some reason => .error (.scalar (.refused reason))
  | none =>
    let time := t.clock.map fun c => (c.hour, c.minute, c.second, c.micro)
    .ok (.timestamp ⟨t.year, t.month, t.day, time, t.clock.bind (·.zone)⟩)

end Stamp

end Scaffold.Yaml
