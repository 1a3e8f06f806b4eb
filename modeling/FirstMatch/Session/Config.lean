import FirstMatch.Filter.RuleFilter

/-!
# Settings of a session

A session reads its datasets by a delimiter and the name of the label column. Every dataset it imports starts with the rule
filter of the settings, whatever filter was set before.
-/

namespace FirstMatch

/-- What a session reads its texts by, and the rule filter it begins with after every import of a dataset. -/
structure Config where
  delimiter : Char := ','
  labelColumn : String := "label"
  ruleFilter : RuleFilter := {}

end FirstMatch
