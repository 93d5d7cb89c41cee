import Scaffold.Config

/-!
A configuration under edit. Besides its fields, anything may be noted in it under names with an
underscore in front. A note is part of the record that it was made in: it goes when that record is
replaced.
-/

namespace Scaffold.Config

structure Draft where
  config : Config
  /-- The notes by the names that lead to them. -/
  notes : List (List String × Value) := []

namespace Draft

/-- The note on the way to an attribute, and the names behind it. -/
def noteBefore? (d : Draft) (names : List String) : Option (Value × List String) :=
  (d.notes.find? fun n => n.1.isPrefixOf names && n.1.length < names.length).map fun n =>
    (n.2, names.drop n.1.length)

/-- The notes after `v` was assigned to an attribute. -/
def notesAfter (d : Draft) (names : List String) (v : Value) : List (List String × Value) :=
  let others := d.notes.filter fun n => !names.isPrefixOf n.1
  if names.getLast?.any (Text.startsWith · "_") then (names, v) :: others else others

/-- Assigns to the attribute that a list of names leads to. A note has no attributes that could be
set. -/
def assign (d : Draft) (names : List String) (v : Value) : Except Fault (Draft × Assigned) := do
  if let some (note, below) := d.noteBefore? names then
    throw (Shape.belowLeaf note.typeName below)
  let (config, done) ← d.config.assign names v
  let notes := if done.refused.isSome then d.notes else d.notesAfter names v
  pure (⟨config, notes⟩, done)

end Draft

end Scaffold.Config
