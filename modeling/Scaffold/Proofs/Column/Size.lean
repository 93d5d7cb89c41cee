import Scaffold.Blocks
import Scaffold.Proofs.Column.Arguments
import Scaffold.Proofs.Name.Runs

/-!
# The size in a type

The number in the parentheses of a type becomes the maximum length of the column, whatever the type is
(`maxLength?_withArguments`), and a column of text gets a rule for it (`Fields.filter_isLimit_rules`). Dates and times
count as text, so the number of digits that are kept of a second limits their length (`Column.filter_isLimit_date`).
-/

namespace Scaffold

open ColumnClass (withArguments IsTypeName searched)

namespace Text
variable {c : Char} {cs digits rest : List Char}

theorem digitValue?_of_isDigit (h : c.isDigit = true) : digitValue? c = some (c.toNat - '0'.toNat) := by
  have hbounds : 48 ≤ c.toNat ∧ c.toNat ≤ 57 := by
    simpa [Char.isDigit, UInt32.le_iff_toNat_le] using h
  simp [digitValue?, digitZeros, hbounds]

theorem isDecimalDigit_of_isDigit (h : c.isDigit = true) : isDecimalDigit c = true := by
  rw [isDecimalDigit, digitValue?_of_isDigit h, Option.isSome_some]

/-- A number is read back from its digits. -/
theorem decimalValue_toDigits (n : Nat) : decimalValue (Nat.toDigits 10 n) = n :=
  calc decimalValue (Nat.toDigits 10 n)
    _ = (Nat.toDigits 10 n).foldl (fun value d => 10 * value + (d.toNat - '0'.toNat)) 0 := by
      refine List.foldl_ext _ _ _ fun value d hd => ?_
      rw [digitValue?_of_isDigit (Nat.isDigit_of_mem_toDigits (by decide) (by decide) hd), Option.getD_some]
    _ = Nat.ofDigitChars 10 (Nat.toDigits 10 n) 0 := Nat.ofDigitChars_eq_foldl.symm
    _ = n := Nat.ofDigitChars_ten_toDigits

end Text

section Size
variable {name : String} {c : Char} {cs digits rest : List Char} {n : Nat}

theorem sizeDigits?_append (h : '(' ∉ cs) : sizeDigits? (cs ++ rest) = sizeDigits? rest := by
  induction cs with
  | nil => rfl
  | cons c cs ih =>
    obtain ⟨hc, hcs⟩ := not_or.1 (List.mem_cons.not.1 h)
    have hne : decide (c = '(') = false := decide_eq_false (Ne.symm hc)
    rw [List.cons_append, sizeDigits?, hne, Bool.false_and, Bool.false_and, if_neg Bool.false_ne_true, ih hcs]

theorem sizeDigits?_parenthesised (hne : digits ≠ []) (h : ∀ d ∈ digits, Text.isDecimalDigit d = true) :
    sizeDigits? ('(' :: (digits ++ ')' :: rest)) = some digits := by
  have htake : (digits ++ ')' :: rest).takeWhile Text.isDecimalDigit = digits := by
    rw [List.takeWhile_append_of_pos h, List.takeWhile_cons_of_neg (by decide), List.append_nil]
  have hdrop : (digits ++ ')' :: rest).drop digits.length = ')' :: rest := List.drop_left
  simp only [sizeDigits?, htake, hdrop]
  simp [hne]

/-- The number in the parentheses of a type is its size, if it is above zero and not too long to be read. -/
theorem maxLength?_withArguments (hname : '(' ∉ name.toList) (n : Nat) : maxLength? (withArguments name (toString n)) =
    if digitLimit < (toString n).length then .error (.tooManyDigits (toString n).length)
    else .ok (if n = 0 then none else some n) := by
  have hdigits : sizeDigits? (withArguments name (toString n)).toList = some (Nat.toDigits 10 n) := by
    rw [ColumnClass.toList_withArguments, sizeDigits?_append hname, Nat.toString_eq_repr, Nat.toList_repr]
    refine sizeDigits?_parenthesised Nat.toDigits_ne_nil fun d hd => ?_
    exact Text.isDecimalDigit_of_isDigit (Nat.isDigit_of_mem_toDigits (by decide) (by decide) hd)
  have hlength : (toString n).length = (Nat.toDigits 10 n).length := by
    rw [Nat.toString_eq_repr, ← String.length_toList, Nat.toList_repr]
  have hsize : (some n).filter (0 < ·) = if n = 0 then none else some n := by
    cases n <;> simp
  simp only [maxLength?, hdigits, Text.decimalValue_toDigits, hlength]
  rw [hsize]

end Size

namespace Fields
variable {v : Variant} {c : Column} {table : String}

/-- Whether a rule limits the length. -/
def isLimit (rule : String) : Bool :=
  Text.startsWith rule "max:"

theorem not_isLimit_typeRule (t : ColumnClass) : isLimit (typeRule t) = false := by
  cases t <;> decide

theorem not_isLimit_uniqueRule : isLimit (uniqueRule table v c) = false := by
  show Text.startsWith ("unique:" ++ table ++ "," ++ c.name ++ _) "max:" = false
  simp only [Text.startsWith, String.toList_append, List.append_assoc]
  rfl

theorem filter_isLimit_lengthRules (c : Column) : (lengthRules c).filter isLimit = lengthRules c := by
  refine List.filter_eq_self.2 fun rule hrule => ?_
  unfold lengthRules at hrule
  split at hrule
  · next n _ _ =>
    rw [List.mem_singleton.1 hrule]
    show Text.startsWith ("max:" ++ toString n) "max:" = true
    rw [Text.startsWith, String.toList_append]
    exact List.isPrefixOf_iff_prefix.2 (List.prefix_append ..)
  · cases hrule

/-- No other rule of a column limits the length. -/
theorem filter_isLimit_rules (f : Fields) (v : Variant) (c : Column) :
    (f.rules v c).filter isLimit = lengthRules c := by
  have hpresence : ¬ isLimit (if v = .create && !c.nullable then "required" else "sometimes") = true := by
    split <;> decide
  have hemail : (if holdsEmail c then ["email", uniqueRule f.table v c] else []).filter isLimit = [] := by
    split
    · rw [List.filter_cons_of_neg (by decide), List.filter_cons_of_neg (by simp [not_isLimit_uniqueRule])]
      rfl
    · rfl
  rw [rules, List.cons_append, List.cons_append, List.filter_cons_of_neg hpresence,
    List.filter_cons_of_neg (by simp [not_isLimit_typeRule]), List.filter_append, hemail, List.append_nil,
    filter_isLimit_lengthRules]

end Fields

namespace Column
variable {type : String}

/-- The types of dates and times that take a precision. -/
def dateTypes : List String := ["timestamp", "datetime", "time"]

theorem silent_dateTypes : ∀ low ∈ dateTypes, IsTypeName low ∧ searched.any (Text.mentions low) = false := by
  decide

theorem not_mentions_number {w : String} (hw : w ∈ searched) (n : Nat) :
    Text.mentions (Name.lower (toString n)) w = false := by
  refine Text.contains_of_apart (ColumnClass.isLower_of_mem_searched w hw).1 fun c hc => ?_
  rw [Name.toList_lower, Nat.toString_eq_repr, Nat.toList_repr] at hc
  obtain ⟨d, hd, rfl⟩ := List.mem_map.1 hc
  have hdigit : d.toLower.isDigit = true := by
    rw [Name.isDigit_toLower]
    exact Nat.isDigit_of_mem_toDigits (by decide) (by decide) hd
  exact ColumnClass.notMem_of_mem_searched hw (Name.case_of_isDigit hdigit).2

theorem class_date (htype : Name.lower type ∈ dateTypes) (precision : Nat) :
    ColumnClass.ofRaw (withArguments type (toString precision)) = .text := by
  obtain ⟨hname, hsilent⟩ := silent_dateTypes _ htype
  rw [ColumnClass.ofRaw_of_silent hname hsilent]
  exact ColumnClass.ofWords_congr fun w hw => not_mentions_number hw precision

theorem checked_eq_ok {c c' : Column} : checked c = .ok c' ↔ c.name ≠ "" ∧ c' = c := by
  unfold checked
  by_cases hname : c.name = ""
  · simp [hname]
  · rw [if_neg (by simpa using hname), Except.ok.injEq, and_iff_right hname]
    exact eq_comm

/-- The column of a date or time is one of text, with the precision as its maximum length. -/
theorem ofRaw_date_eq_ok (htype : Name.lower type ∈ dateTypes) {name : String} {precision : Nat}
    {nullable excluded : Bool} {c : Column} :
    ofRaw name (some (withArguments type (toString precision))) nullable excluded = .ok c ↔
      name ≠ "" ∧ (toString precision).length ≤ digitLimit ∧
        c = { name, nullable, excluded, maxLength := if precision = 0 then none else some precision } := by
  have hparen : '(' ∉ type.toList := fun hmem => by
    cases (silent_dateTypes _ htype).1.isAlphanum hmem
  simp only [ofRaw, maxLength?_withArguments hparen, class_date htype]
  by_cases hlong : digitLimit < (toString precision).length
  · rw [if_pos hlong]
    exact iff_of_false (fun h => by cases h) fun h => absurd h.2.1 (Nat.not_le.2 hlong)
  · rw [if_neg hlong]
    exact checked_eq_ok.trans (and_congr_right fun _ => (and_iff_right (Nat.not_lt.1 hlong)).symm)

theorem lengthRules_sized (name : String) (nullable excluded : Bool) (n : Nat) :
    Fields.lengthRules { name, nullable, excluded, maxLength := if n = 0 then none else some n } =
      if n = 0 then [] else [s!"max:{n}"] := by
  by_cases hn : n = 0 <;> simp [Fields.lengthRules, hn]

/-- A date or time with a precision has a column unless the name is empty or the precision too long to be read. The
column gets a length rule exactly where the precision is not zero. -/
theorem filter_isLimit_date (htype : Name.lower type ∈ dateTypes) (name : String) (precision : Nat)
    (nullable excluded : Bool) :
    let column := ofRaw name (some (withArguments type (toString precision))) nullable excluded
    ((∃ c, column = .ok c) ↔ name ≠ "" ∧ (toString precision).length ≤ digitLimit) ∧
      ∀ c, column = .ok c → ∀ (f : Fields) (v : Variant),
        (f.rules v c).filter Fields.isLimit = if precision = 0 then [] else [s!"max:{precision}"] := by
  intro column
  refine ⟨⟨?_, ?_⟩, fun c hc f v => ?_⟩
  · rintro ⟨c, hc⟩
    obtain ⟨hname, hlength, -⟩ := (ofRaw_date_eq_ok htype).1 hc
    exact ⟨hname, hlength⟩
  · rintro ⟨hname, hlength⟩
    exact ⟨_, (ofRaw_date_eq_ok htype).2 ⟨hname, hlength, rfl⟩⟩
  · obtain ⟨-, -, rfl⟩ := (ofRaw_date_eq_ok htype).1 hc
    rw [Fields.filter_isLimit_rules, lengthRules_sized]

/-- A time of day to the millisecond. -/
theorem filter_isLimit_time :
    Name.lower "TIME" ∈ dateTypes ∧
      let column := ofRaw "starts_at" (some (withArguments "TIME" (toString 3))) true false
      ((∃ c, column = .ok c) ↔ "starts_at" ≠ "" ∧ (toString 3).length ≤ digitLimit) ∧
        ∀ c, column = .ok c → ∀ (f : Fields) (v : Variant),
          (f.rules v c).filter Fields.isLimit = if 3 = 0 then [] else [s!"max:{3}"] :=
  have htype : Name.lower "TIME" ∈ dateTypes := by decide
  ⟨htype, filter_isLimit_date htype "starts_at" 3 true false⟩

/-- A point of time to the microsecond is taken for a text of six characters at most. -/
theorem date_limited :
    withArguments "timestamp" (toString 6) = "timestamp(6)" ∧
      ∃ c, ofRaw "starts_at" (some "timestamp(6)") false false = .ok c ∧
        (Fields.ofConfig [c] "events" {}).rules .create c = ["required", "string", "max:6"] :=
  ⟨by decide, _, rfl, by decide⟩

end Column

end Scaffold
