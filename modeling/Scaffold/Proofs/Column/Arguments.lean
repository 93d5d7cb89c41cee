import Scaffold.Column
import Scaffold.Proofs.Name.Plural
import Scaffold.Proofs.Php.Source
import Scaffold.Proofs.Text.ReadBack

/-!
# Types with arguments

A reported type is classed by a few words that may stand anywhere in it. These are made of letters, so a parenthesis
is part of none, and what stands in the parentheses of a type is searched like its name (`ofRaw_withArguments`).
-/

namespace Scaffold

namespace Text
variable {sep : Char} {needle as bs : List Char}

theorem contains_append_cons (hsep : sep ∉ needle) :
    contains needle (as ++ sep :: bs) = (contains needle as || contains needle bs) := by
  rw [Bool.eq_iff_iff, Bool.or_eq_true, contains_iff_infix, contains_iff_infix, contains_iff_infix]
  constructor
  · exact infix_append_cons hsep
  · rintro (h | h)
    · exact h.trans (List.prefix_append ..).isInfix
    · exact h.trans ((List.suffix_cons ..).trans (List.suffix_append ..)).isInfix

theorem contains_nil (hne : needle ≠ []) : contains needle [] = false :=
  List.isEmpty_eq_false_iff.2 hne

/-- A character that is not in the needle is passed over. -/
theorem contains_append_of_apart (hne : needle ≠ []) (h : ∀ c ∈ as, c ∉ needle) :
    contains needle (as ++ bs) = contains needle bs := by
  induction as with
  | nil => rfl
  | cons c as ih =>
    obtain ⟨hc, has⟩ := List.forall_mem_cons.1 h
    rw [← List.nil_append (c :: as), List.append_assoc, List.cons_append, contains_append_cons hc, contains_nil hne,
      Bool.false_or, ih has]

theorem contains_of_apart (hne : needle ≠ []) (h : ∀ c ∈ as, c ∉ needle) : contains needle as = false := by
  rw [← List.append_nil as, contains_append_of_apart hne h, contains_nil hne]

end Text

namespace ColumnClass
variable {name arguments w : String} {has has' : String → Bool}

section Words

/-- The words that are looked for in a type. -/
def searched : List String :=
  "bool" :: "int" :: (intLookalikes ++ floatMarkers)

/-- The class of a type, where `has` says which words stand in it. -/
def ofWords (has : String → Bool) : ColumnClass :=
  if has "bool" then boolean
  else if has "int" && !intLookalikes.any has then integer
  else if floatMarkers.any has then float
  else text

theorem ofRaw_of_notMem {raw low : String} (hlow : Name.lower (Text.stripped raw) = low) (hflag : low ∉ flagTypes) :
    ofRaw raw = ofWords (Text.mentions low) := by
  have hcontains : flagTypes.contains low = false := by simpa using hflag
  simp only [ofRaw, ofWords, hlow, hcontains, Bool.false_or]

theorem ofWords_congr (h : ∀ w ∈ searched, has w = has' w) : ofWords has = ofWords has' := by
  have hany : ∀ ws : List String, (∀ w ∈ ws, w ∈ searched) → ws.any has = ws.any has' := fun ws hws => by
    rw [Bool.eq_iff_iff, List.any_eq_true, List.any_eq_true]
    exact exists_congr fun w => and_congr_right fun hw => by rw [h w (hws w hw)]
  simp only [ofWords, h "bool" (by simp [searched]), h "int" (by simp [searched]),
    hany intLookalikes fun w hw => by simp [searched, hw], hany floatMarkers fun w hw => by simp [searched, hw]]

theorem ofWords_eq_text_iff : ofWords has = text ↔ has "bool" = false ∧
    (has "int" = true → intLookalikes.any has = true) ∧ floatMarkers.any has = false := by
  unfold ofWords
  cases has "bool" <;> cases has "int" <;> cases intLookalikes.any has <;> cases floatMarkers.any has <;> decide

theorem isLower_of_mem_searched : ∀ w ∈ searched, w.toList ≠ [] ∧ w.toList.all Char.isLower = true := by
  decide

theorem notMem_of_mem_searched {c : Char} (hw : w ∈ searched) (hc : c.isLower = false) : c ∉ w.toList := fun hmem => by
  rw [List.all_eq_true.1 (isLower_of_mem_searched w hw).2 c hmem] at hc
  cases hc

end Words

section Arguments

/-- A type with something in parentheses. -/
def withArguments (name arguments : String) : String :=
  name ++ "(" ++ arguments ++ ")"

/-- A word of letters, in lower case, that is no type of a single bit. -/
def IsTypeName (low : String) : Prop :=
  low ≠ "" ∧ low.toList.all Char.isLower = true ∧ low ∉ ["tinyint", "bit"]

instance (low : String) : Decidable (IsTypeName low) :=
  inferInstanceAs (Decidable (_ ∧ _ ∧ _))

theorem toList_withArguments :
    (withArguments name arguments).toList = name.toList ++ '(' :: (arguments.toList ++ ')' :: []) := by
  simp [withArguments, String.toList_append]

theorem lower_withArguments : Name.lower (withArguments name arguments) =
    withArguments (Name.lower name) (Name.lower arguments) := by
  rw [← String.toList_inj, Name.toList_lower, toList_withArguments, toList_withArguments, Name.toList_lower,
    Name.toList_lower]
  simp

theorem IsTypeName.isAlphanum {c : Char} (h : IsTypeName (Name.lower name)) (hc : c ∈ name.toList) :
    c.isAlphanum = true := by
  have hlower : c.toLower.isLower = true := by
    refine List.all_eq_true.1 h.2.1 c.toLower ?_
    rw [Name.toList_lower]
    exact List.mem_map_of_mem hc
  rw [← Name.isAlphanum_toLower, Char.isAlphanum, Char.isAlpha, hlower, Bool.or_true, Bool.true_or]

theorem stripped_withArguments (h : IsTypeName (Name.lower name)) :
    Text.stripped (withArguments name arguments) = withArguments name arguments := by
  have hne : name.toList ≠ [] := fun hnil => h.1 (by rw [Name.lower, hnil]; rfl)
  obtain ⟨c, cs, hcs⟩ := List.exists_cons_of_ne_nil hne
  have halnum : c.isAlphanum = true := h.isAlphanum (hcs ▸ List.mem_cons_self ..)
  have hc : ¬ Text.isBlank c = true := by
    rw [Php.isBlank_of_nameRest (Review.isNameRest_of_alphanum halnum)]
    exact Bool.false_ne_true
  have hstrip : Text.strip (withArguments name arguments).toList = (withArguments name arguments).toList := by
    rw [toList_withArguments, hcs, Text.strip, List.cons_append, List.dropWhile_cons_of_neg hc, ← List.cons_append,
      ← List.cons_append, ← List.append_assoc]
    exact List.rdropWhile_concat_neg _ _ ')' (by decide)
  rw [Text.stripped, hstrip, String.ofList_toList]

/-- Of the types with arguments, only those of a single bit are known as a whole. -/
theorem IsTypeName.notMem_flagTypes (h : IsTypeName name) : withArguments name arguments ∉ flagTypes := by
  have hname : ∀ c ∈ name.toList, (c != '(') = true := fun c hc => by
    have hlower := List.all_eq_true.1 h.2.1 c hc
    rw [bne_iff_ne]
    rintro rfl
    cases hlower
  have hstart : (withArguments name arguments).toList.takeWhile (· != '(') = name.toList := by
    rw [toList_withArguments, List.takeWhile_append_of_pos hname, List.takeWhile_cons_of_neg (by decide),
      List.append_nil]
  have hflags : ∀ flag ∈ flagTypes, .ofList (flag.toList.takeWhile (· != '(')) ∈ ["tinyint", "bit"] := by
    decide
  intro hmem
  have hflag := hflags _ hmem
  rw [hstart, String.ofList_toList] at hflag
  exact h.2.2 hflag

theorem mentions_withArguments (hw : w ∈ searched) : Text.mentions (withArguments name arguments) w =
    (Text.mentions name w || Text.mentions arguments w) := by
  simp only [Text.mentions, toList_withArguments]
  rw [Text.contains_append_cons (notMem_of_mem_searched hw (by decide)),
    Text.contains_append_cons (notMem_of_mem_searched hw (by decide)),
    Text.contains_nil (isLower_of_mem_searched w hw).1, Bool.or_false]

/-- The arguments of a type are searched like its name. -/
theorem ofRaw_withArguments (h : IsTypeName (Name.lower name)) : ofRaw (withArguments name arguments) =
    ofWords fun w => Text.mentions (Name.lower name) w || Text.mentions (Name.lower arguments) w := by
  have hlow : Name.lower (Text.stripped (withArguments name arguments)) =
      withArguments (Name.lower name) (Name.lower arguments) := by
    rw [stripped_withArguments h, lower_withArguments]
  rw [ofRaw_of_notMem hlow h.notMem_flagTypes]
  exact ofWords_congr fun w hw => mentions_withArguments hw

/-- Where the name holds none of the words, the arguments alone decide. -/
theorem ofRaw_of_silent (h : IsTypeName (Name.lower name))
    (hsilent : searched.any (Text.mentions (Name.lower name)) = false) :
    ofRaw (withArguments name arguments) = ofWords (Text.mentions (Name.lower arguments)) := by
  rw [ofRaw_withArguments h]
  refine ofWords_congr fun w hw => ?_
  rw [Bool.eq_false_iff.2 (List.any_eq_false.1 hsilent w hw), Bool.false_or]

end Arguments

end ColumnClass

end Scaffold
