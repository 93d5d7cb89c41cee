import Scaffold.Proofs.Column.Arguments

/-!
# Types that list their values

The labels of a type are searched for the names of other types. A label that holds such a name in any letter case
decides the class of the column (`ofRaw_labelled`): the column of an `enum` with the label `print` is taken for one of
integers.
-/

namespace Scaffold.ColumnClass

/-- The types whose arguments are labels. -/
def labelTypes : List String := ["enum", "set"]

/-- The inside of a quoted label, in which a quote is written twice. -/
def doubled (cs : List Char) : List Char :=
  cs.flatMap fun c => if c = '\'' then ['\'', '\''] else [c]

def quotedLabel (label : String) : String :=
  .ofList ('\'' :: (doubled label.toList ++ ['\'']))

/-- A type with a list of labels, in quotes and parted by `separator`. -/
def labelled (name separator : String) (labels : List String) : String :=
  withArguments name (separator.intercalate (labels.map quotedLabel))

/-- Whether a word stands in one of the labels, in any letter case. -/
def labelsMention (labels : List String) (w : String) : Bool :=
  labels.any fun label => Text.mentions (Name.lower label) w

variable {name separator w : String} {cs rest needle : List Char}

section Quotes

theorem toLower_quote : Char.toLower '\'' = '\'' := by
  decide

theorem doubled_of_notMem (h : '\'' ∉ cs) : doubled cs = cs := by
  induction cs with
  | nil => rfl
  | cons c cs ih =>
    obtain ⟨hc, hcs⟩ := not_or.1 (List.mem_cons.not.1 h)
    rw [doubled, List.flatMap_cons, if_neg (Ne.symm hc), ← doubled, ih hcs]
    rfl

theorem doubled_append_cons (as bs : List Char) :
    doubled (as ++ '\'' :: bs) = doubled as ++ '\'' :: '\'' :: doubled bs := by
  rw [doubled, List.flatMap_append, List.flatMap_cons, if_pos rfl]
  rfl

/-- Quotes part words, one as well as two. -/
theorem contains_doubled (hne : needle ≠ []) (hquote : '\'' ∉ needle) (cs : List Char) :
    Text.contains needle ((doubled cs).map Char.toLower) = Text.contains needle (cs.map Char.toLower) := by
  induction cs using Text.split_induction '\'' with
  | last cs hcs => rw [doubled_of_notMem hcs]
  | cut as bs has ih =>
    rw [doubled_append_cons, doubled_of_notMem has, List.map_append, List.map_append, List.map_cons, List.map_cons,
      List.map_cons, toLower_quote, Text.contains_append_cons hquote, Text.contains_append_cons hquote,
      ← List.nil_append ('\'' :: _), Text.contains_append_cons hquote, Text.contains_nil hne, Bool.false_or, ih]

theorem map_toLower_quotedLabel (label : String) : (quotedLabel label).toList.map Char.toLower =
    [] ++ '\'' :: ((doubled label.toList).map Char.toLower ++ '\'' :: []) := by
  rw [quotedLabel, String.toList_ofList, List.map_cons, List.map_append, List.map_cons, toLower_quote]
  rfl

theorem contains_quotedLabel_append (hne : needle ≠ []) (hquote : '\'' ∉ needle) (label : String) :
    Text.contains needle ((quotedLabel label).toList.map Char.toLower ++ rest) =
      (Text.contains needle (label.toList.map Char.toLower) || Text.contains needle rest) := by
  rw [map_toLower_quotedLabel, List.append_assoc, List.cons_append, List.append_assoc, List.cons_append,
    Text.contains_append_cons hquote, Text.contains_append_cons hquote, Text.contains_nil hne, Bool.false_or,
    contains_doubled hne hquote, List.nil_append]

/-- A word stands in a list of labels where it stands in one of them, if no character of the separator is part of it. -/
theorem contains_labels (hne : needle ≠ []) (hquote : '\'' ∉ needle) {sep : List Char}
    (hsep : ∀ c ∈ sep.map Char.toLower, c ∉ needle) (labels : List String) :
    Text.contains needle ((sep.intercalate (labels.map fun label => (quotedLabel label).toList)).map Char.toLower) =
      labels.any fun label => Text.contains needle (label.toList.map Char.toLower) := by
  induction labels with
  | nil => exact Text.contains_nil hne
  | cons label labels ih =>
    cases labels with
    | nil =>
      rw [List.map_singleton, List.intercalate_singleton, ← List.append_nil (List.map _ _),
        contains_quotedLabel_append hne hquote, Text.contains_nil hne, List.any_cons, List.any_nil]
    | cons label' labels =>
      rw [List.map_cons, List.map_cons, List.intercalate_cons_cons, List.map_append, List.map_append, List.append_assoc,
        contains_quotedLabel_append hne hquote, Text.contains_append_of_apart hne hsep, List.any_cons,
        ← List.map_cons (f := fun label => (quotedLabel label).toList), ih]

end Quotes

section Labels

theorem silent_labelTypes : ∀ low ∈ labelTypes, IsTypeName low ∧ searched.any (Text.mentions low) = false := by
  decide

theorem mentions_labels (hw : w ∈ searched) (hseparator : separator.toList.any Char.isAlpha = false)
    (labels : List String) :
    Text.mentions (Name.lower (separator.intercalate (labels.map quotedLabel))) w = labelsMention labels w := by
  obtain ⟨hne, hletters⟩ := isLower_of_mem_searched w hw
  have hsep : ∀ c ∈ separator.toList.map Char.toLower, c ∉ w.toList := by
    intro c hc
    obtain ⟨d, hd, rfl⟩ := List.mem_map.1 hc
    have halpha : d.isAlpha = false := by simpa using List.any_eq_false.1 hseparator d hd
    have hlow : d.toLower.isAlpha = false := by simpa using halpha
    exact notMem_of_mem_searched hw (Bool.or_eq_false_iff.1 hlow).2
  simp only [Text.mentions, labelsMention, Name.toList_lower, String.toList_intercalate, List.map_map, Function.comp_def]
  exact contains_labels hne (notMem_of_mem_searched hw (by decide)) hsep labels

/-- The class of a type with labels depends on the words in the labels alone, and is that of text where no label holds
the name of another class. -/
theorem ofRaw_labelled (hname : Name.lower name ∈ labelTypes) (hseparator : separator.toList.any Char.isAlpha = false)
    (labels : List String) :
    ofRaw (labelled name separator labels) = ofWords (labelsMention labels) ∧
      (ofRaw (labelled name separator labels) = text ↔ labelsMention labels "bool" = false ∧
        (labelsMention labels "int" = true → intLookalikes.any (labelsMention labels) = true) ∧
        floatMarkers.any (labelsMention labels) = false) := by
  obtain ⟨htype, hsilent⟩ := silent_labelTypes _ hname
  have hclass : ofRaw (labelled name separator labels) = ofWords (labelsMention labels) := by
    rw [labelled, ofRaw_of_silent htype hsilent]
    exact ofWords_congr fun w hw => mentions_labels hw hseparator labels
  exact ⟨hclass, hclass ▸ ofWords_eq_text_iff⟩

/-- Two states of an order, the second with a quote in it. -/
theorem ofRaw_labelled_open :
    Name.lower "ENUM" ∈ labelTypes ∧ ",".toList.any Char.isAlpha = false ∧
      ofRaw (labelled "ENUM" "," ["open", "can't ship"]) = ofWords (labelsMention ["open", "can't ship"]) ∧
      (ofRaw (labelled "ENUM" "," ["open", "can't ship"]) = text ↔
        labelsMention ["open", "can't ship"] "bool" = false ∧
        (labelsMention ["open", "can't ship"] "int" = true →
          intLookalikes.any (labelsMention ["open", "can't ship"]) = true) ∧
        floatMarkers.any (labelsMention ["open", "can't ship"]) = false) :=
  have hname : Name.lower "ENUM" ∈ labelTypes := by decide
  have hseparator : ",".toList.any Char.isAlpha = false := by decide
  ⟨hname, hseparator, ofRaw_labelled hname hseparator ["open", "can't ship"]⟩

/-- Labels with `int`, `bool` and `real` in them. -/
theorem ofRaw_labelled_print :
    labelled "enum" "," ["print", "online"] = "enum('print','online')" ∧
      ofRaw (labelled "enum" "," ["print", "online"]) = integer ∧
      ofRaw (labelled "SET" ", " ["Boolean", "Text"]) = boolean ∧
      ofRaw (labelled "Enum" "," ["REALISTIC"]) = float := by
  decide

end Labels

end Scaffold.ColumnClass
