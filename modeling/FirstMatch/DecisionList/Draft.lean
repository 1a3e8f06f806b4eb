import FirstMatch.DecisionList

/-!
# Drafts of rules

A draft names its features instead of numbering them. It becomes a rule against a catalog: its label must occur in the label
column, and each condition must test a known column other than the label, once in the rule, with an operator that suits column
and literal. The first thing wrong, the label before the conditions and these in their order, is the reason of refusal.
-/

namespace FirstMatch

/-- A condition on a feature by name. -/
structure ConditionDraft where
  feature : String
  op : Operator
  value : Value

/-- A rule over feature names; the label may be missing. -/
structure RuleDraft where
  conditions : List ConditionDraft
  label? : Option Value
  reported : ReportedCounts := {}

/-- Whether a draft has no condition. -/
def RuleDraft.isDefault (d : RuleDraft) : Bool := d.conditions.isEmpty

/-- The condition of a draft on a given line, where the columns in `tested` are tested already. -/
def ConditionDraft.resolve (d : ConditionDraft) (c : Catalog) (line : Nat) (tested : List Nat) : Except Error Condition :=
  match c.column? d.feature with
  | none => .error (.schema (.unknownRuleFeature line d.feature))
  | some i =>
    if i = c.label then .error (.schema (.conditionOnLabel line d.feature))
    else if i ∈ tested then .error (.grammar ⟨line, .duplicateFeature d.feature⟩)
    else if d.op.isOrdering && !(c.isNumeric i && d.value.isNumber) then
      .error (.grammar ⟨line, .incomparableValue d.feature d.op d.value⟩)
    else .ok ⟨i, d.op, d.value⟩

/-- The conditions of drafts in order. -/
def resolveConditions (c : Catalog) (line : Nat) (tested : List Nat) : List ConditionDraft → Except Error (List Condition)
  | [] => .ok []
  | d :: rest => do
    let condition ← d.resolve c line tested
    let others ← resolveConditions c line (condition.feature :: tested) rest
    return condition :: others

/-- The rule of a draft on a given line. -/
def RuleDraft.resolve (d : RuleDraft) (c : Catalog) (line : Nat) : Except Error Rule :=
  match d.label? with
  | none => .error (.grammar ⟨line, .emptyLabel⟩)
  | some label =>
    if c.labelFeature.contains label then do
      let conditions ← resolveConditions c line [] d.conditions
      return ⟨conditions, label, d.reported⟩
    else .error (.schema (.labelNotInDomain line label))

namespace DecisionList

/-- Rules with their lines, or the reason why they are no list. -/
def ofRules (rules : List (Nat × Rule)) : Except Error DecisionList :=
  match ofNumbered rules with
  | .ok l => .ok l
  | .error e => .error (.grammar e)

/-- The rules of drafts, the first of which has number `n`. -/
def resolveFrom (c : Catalog) (n : Nat) : List RuleDraft → Except Error (List (Nat × Rule))
  | [] => .ok []
  | d :: rest => do
    let rule ← d.resolve c n
    let others ← resolveFrom c (n + 1) rest
    return (n, rule) :: others

/-- The list of a sequence of drafts. Positions, from one, stand in for lines. -/
def ofDrafts (c : Catalog) (drafts : List RuleDraft) : Except Error DecisionList := do
  ofRules (← resolveFrom c 1 drafts)

end DecisionList

end FirstMatch
