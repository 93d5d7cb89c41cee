import Scaffold.Shape
import Scaffold.Text.Search

/-!
Records with named fields. A mapping is read field by field in the order of declaration; a field it
does not name keeps its default, and keys that name no field are problems, listed after those of the
fields. Single fields can be assigned later under the same checks.
-/

namespace Scaffold

/-- A field of the record `R`. -/
structure Field (R : Type) where
  name : String
  needed : Bool
  read : Value → R → Except (List Problem) R
  write : R → Value
  assign : List String → Value → R → Except Fault (R × Assigned)

namespace Field

/-- The field that `get` and `set` reach, with values of the given shape. -/
def of (name : String) (shape : Shape α) (get : R → α) (set : α → R → R) : Field R where
  name := name
  needed := false
  read v r := (shape.read v).map (set · r)
  write r := shape.write (get r)
  assign names v r := (shape.assign names v (get r)).map fun (a, done) => (set a r, done)

/-- A field that every mapping must name. -/
def mandatory (name : String) (shape : Shape α) (get : R → α) (set : α → R → R) : Field R :=
  { of name shape get set with needed := true }

end Field

/-- The fields of `R`, with the record that an empty mapping gives where no field is mandatory, and
the attributes that follow from the fields. -/
structure Record (R : Type) where
  kind : String
  initial : R
  fields : List (Field R)
  derived : List (Field R) := []

namespace Record

/-- Reads the fields into `r`, and what is wrong with them. -/
def readFields (pairs : List (Value × Value)) : List (Field R) → R → R × List Problem
  | [], r => (r, [])
  | f :: fs, r =>
    match Value.lookup f.name pairs with
    | none =>
      let (r, ps) := readFields pairs fs r
      (r, if f.needed then ⟨[f.name], .missing⟩ :: ps else ps)
    | some v =>
      match f.read v r with
      | .ok r => readFields pairs fs r
      | .error qs =>
        let (r, ps) := readFields pairs fs r
        (r, qs.map (·.under f.name) ++ ps)

/-- What is wrong with a key, seen apart from its value. -/
def keyProblem (rec : Record R) : Value → Option Problem
  | .text s => if rec.fields.any (·.name == s) then none else some ⟨[s], .unknownField⟩
  | k => some ⟨[k.keyText], .keyNotText⟩

/-- Whether a key is text that no field can be compared with. -/
def isBrokenKey : Value → Bool
  | .brokenText _ => true
  | _ => false

/-- Reads a mapping. A key of broken text is the only problem of a mapping that has one. -/
def read (rec : Record R) : Value → Except (List Problem) R
  | .map pairs =>
    if pairs.any (isBrokenKey ·.1) then Shape.problem .textNotUtf8 else
    let (r, ps) := readFields pairs rec.fields rec.initial
    match ps ++ pairs.filterMap (rec.keyProblem ·.1) with
    | [] => .ok r
    | ps => .error ps
  | _ => Shape.problem .notModel

def write (rec : Record R) (r : R) : Value :=
  .map (rec.fields.map fun f => (.text f.name, f.write r))

def field? (rec : Record R) (name : String) : Option (Field R) :=
  rec.fields.find? (·.name == name)

def derived? (rec : Record R) (name : String) : Option (Field R) :=
  rec.derived.find? (·.name == name)

/-- Assigns `v` to the field `name`. -/
def assignField (rec : Record R) (name : String) (v : Value) (r : R) : R × Assigned :=
  match rec.field? name with
  | none => (r, ⟨.null, some (.invalid [⟨[name], .unknownAttribute⟩])⟩)
  | some f =>
    match f.read v r with
    | .ok r => (r, ⟨f.write r, none⟩)
    | .error ps => (r, ⟨f.write r, some (.invalid (ps.map (·.under name)))⟩)

/-- Assigns `v` to the attribute `name`. An attribute that follows from the fields cannot be set;
under a name with an underscore in front anything may be noted, and no field changes. Neither shows in
the plain value of the record. -/
def assignAttribute (rec : Record R) (name : String) (v : Value) (r : R) : R × Assigned :=
  if (rec.derived? name).isSome then (r, ⟨.null, some (.derivedAttribute rec.kind name)⟩)
  else if Text.startsWith name "_" then (r, ⟨.null, none⟩)
  else rec.assignField name v r

/-- Assigns `v` to the attribute that a list of names leads to. A name on the way that names no
attribute is a fault; a refused value is not. -/
def assign (rec : Record R) : List String → Value → R → Except Fault (R × Assigned)
  | [], _, r => .ok (r, ⟨rec.write r, none⟩)
  | [name], v, r => .ok (rec.assignAttribute name v r)
  | name :: names, v, r =>
    match (rec.field? name).or (rec.derived? name) with
    | none => .error (.noAttribute rec.kind name)
    | some f => f.assign names v r

def shape (rec : Record R) : Shape R where
  read := rec.read
  write := rec.write
  assign := rec.assign

end Record

end Scaffold
