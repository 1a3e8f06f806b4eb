import FirstMatch.RuleText.List

/-!
# Writing rules

The text of a decision list, as its rules may be written: one a line, each operator in ASCII or as its glyph, with any number of
spaces around it. Names, literals and labels fit where they cannot be mistaken for the words and signs between them.
-/

namespace FirstMatch

namespace RuleText

/-- The characters that operators are spelled with. -/
def signs : List Char := ['!', '=', '<', '>', '≠', '≥', '≤']

/-- No operator is spelled in a text, not even in part. -/
def Signless (t : List Char) : Prop := ∀ c ∈ t, c ∉ signs

instance (t : List Char) : Decidable (Signless t) := List.decidableBAll (· ∉ signs) t

end RuleText

open RuleText

/-- A value that reads back as it is written: a finite number that its digits give, or a text on one line, without blanks
around it, that is not the text of a finite number. -/
def Value.Legible : Value → Prop
  | number x => x.isFinite = true ∧ Decimal.readFloat? (Decimal.text x).toList = some x
  | text s => s.toList ≠ [] ∧ Text.trim s.toList = s.toList ∧ '\n' ∉ s.toList ∧
      ∀ x, Decimal.readFloat? s.toList = some x → x.isFinite = false

/-- A condition and how it is written. -/
structure WrittenCondition where
  feature : String
  op : Operator
  value : Value
  /-- The operator is spelled as a glyph. -/
  glyph : Bool
  spacesBefore : Nat
  spacesAfter : Nat

namespace WrittenCondition

/-- What the condition says. -/
def draft (x : WrittenCondition) : ConditionDraft := ⟨x.feature, x.op, x.value⟩

/-- The operator as it is written. -/
def spelling (x : WrittenCondition) : List Char := (if x.glyph then x.op.glyph else x.op.symbol).toList

/-- The feature and the spaces after it. -/
def subject (x : WrittenCondition) : List Char := x.feature.toList ++ List.replicate x.spacesBefore ' '

/-- The literal and the spaces before it. -/
def object (x : WrittenCondition) : List Char := List.replicate x.spacesAfter ' ' ++ x.value.render.toList

/-- The condition as it is written. -/
def write (x : WrittenCondition) : List Char := x.subject ++ (x.spelling ++ x.object)

/-- The feature is a column's name on one line, without blanks around it and without signs. The literal is legible, and if it is a
text, has no signs either and does not write the word between conditions. -/
structure Fits (c : Catalog) (x : WrittenCondition) : Prop where
  column : (c.column? x.feature).isSome = true
  ne_nil : x.feature.toList ≠ []
  trimmed : Text.trim x.feature.toList = x.feature.toList
  one_line : '\n' ∉ x.feature.toList
  signless : Signless x.feature.toList
  legible : x.value.Legible
  literal : ∀ s, x.value = .text s → Signless s.toList ∧ ¬andWord <:+: ' ' :: (s.toList ++ [' '])

end WrittenCondition

/-- A rule and how it is written. -/
structure WrittenRule where
  conditions : List WrittenCondition
  label : Value
  reported : ReportedCounts

/-- The conditions with the word between them. -/
def RuleText.writeConditions : List WrittenCondition → List Char
  | [] => []
  | [x] => x.write
  | x :: y :: rest => x.write ++ (andWord ++ writeConditions (y :: rest))

/-- Two counts with a stroke between them, in parentheses. -/
def RuleText.writeCounts (r : ReportedCounts) : List Char :=
  '(' :: (Decimal.digitText r.trueCount.toNat ++ '/' :: (Decimal.digitText r.falseCount.toNat ++ [')']))

namespace WrittenRule

/-- What the rule says. -/
def draft (r : WrittenRule) : RuleDraft := ⟨r.conditions.map (·.draft), some r.label, r.reported⟩

/-- The rule as it is written, without its counts. -/
def head (r : WrittenRule) : List Char :=
  if r.conditions.isEmpty then ['e', 'l', 's', 'e', ' '] ++ r.label.render.toList
  else ['i', 'f', ' '] ++ (writeConditions r.conditions ++ (thenWord ++ r.label.render.toList))

/-- The rule as it is written. -/
def write (r : WrittenRule) : List Char := r.head ++ ' ' :: writeCounts r.reported

/-- The conditions fit, and the label is legible. If it is a text, it does not end in the word before labels, nor, after
conditions, write that word. -/
structure Fits (c : Catalog) (r : WrittenRule) : Prop where
  conditions : ∀ x ∈ r.conditions, x.Fits c
  legible : r.label.Legible
  label_end : ∀ s, r.label = .text s → ¬[' ', 't', 'h', 'e', 'n'] <:+ ' ' :: s.toList
  label_then : r.conditions ≠ [] → ∀ s, r.label = .text s → ¬thenWord <:+: ' ' :: s.toList

end WrittenRule

/-- Rules, one a line. -/
def RuleText.writeRules : List WrittenRule → List Char
  | [] => []
  | [r] => r.write
  | r :: q :: rest => r.write ++ '\n' :: writeRules (q :: rest)

end FirstMatch
