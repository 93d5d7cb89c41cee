import Scaffold.Workspace

/-!
Writing artifacts. A file that stands is left alone unless the caller insists; every file that is
written is recorded, in order.
-/

namespace Scaffold

/-- What came of writing one artifact: the record of the file, unless it was left alone. -/
structure Written where
  path : String
  record : Option WrittenFile
deriving Repr, DecidableEq

namespace Writer

def source : String := "smartcrud.exporters"

/-- Writes `text` to `p`; a file that stands is only replaced if `force` is set. -/
def write (p : Path) (text : String) (force : Bool) : Action Written := do
  let there ← Action.look (·.stands p)
  if there && !force then
    Action.say .info source s!"Skipped existing file: {p}"
    pure { path := p.toString, record := none }
  else
    let record ← Action.edit (Edit.replaceFile p text)
    modify fun w => { w with records := w.records ++ [record] }
    Action.say .debug source s!"Wrote file: {p} ({record.size} bytes, {record.lines} lines)."
    pure { path := p.toString, record := some record }

end Writer

end Scaffold
