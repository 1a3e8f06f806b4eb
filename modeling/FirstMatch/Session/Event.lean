import FirstMatch.Error

/-!
# Events

What a session tells of its work while it does it: the stages it passed, with their figures, and the inputs it refused, with the
reasons.
-/

namespace FirstMatch

/-- How much an event matters. -/
inductive Level where
  | debug | info | warn
  deriving DecidableEq, Repr

/-- The name of a level. -/
def Level.name : Level → String
  | debug => "DEBUG"
  | info => "INFO"
  | warn => "WARN"

/-- Something a session tells. -/
inductive Event where
  | readDataset (columns rows : Nat)
  | refusedDataset (e : Error)
  | importedDataset (rows columns labels : Nat)
  | readRuleLine (line : Nat) (isDefault : Bool)
  | compiledGraph (nodes depth height : Nat)
  | evaluatedList (rows rules : Nat) (accuracy : Float)
  | refusedRules (e : Error)
  | importedRules (rules nodes visible : Nat)
  | changedRows (rows visible : Nat) (accuracy : Float)
  | appliedRuleFilter (visible : Nat)

namespace Event

/-- The level of an event: refusals warn, imports and changes inform. -/
def level : Event → Level
  | refusedDataset _ | refusedRules _ => .warn
  | importedDataset .. | importedRules .. | changedRows .. => .info
  | _ => .debug

/-- The wording of an event. -/
def message : Event → String
  | readDataset .. => "parsed dataset"
  | refusedDataset _ => "rejected dataset import"
  | importedDataset .. => "imported dataset"
  | readRuleLine .. => "parsed rule line"
  | compiledGraph .. => "compiled decision list graph"
  | evaluatedList .. => "evaluated decision list"
  | refusedRules _ => "rejected rule import"
  | importedRules .. => "imported rules"
  | changedRows .. => "re-evaluated after filter change"
  | appliedRuleFilter _ => "applied rule filter"

/-- The figures and reasons that go with an event, by name. -/
def fields : Event → List (String × String)
  | readDataset columns rows => [("columns", columns.repr), ("rows", rows.repr)]
  | refusedDataset e => [("error", e.message)]
  | importedDataset rows columns labels => [("rows", rows.repr), ("columns", columns.repr), ("labels", labels.repr)]
  | readRuleLine line isDefault => [("line", line.repr), ("default", if isDefault then "true" else "false")]
  | compiledGraph nodes depth height => [("nodes", nodes.repr), ("depth", depth.repr), ("height", height.repr)]
  | evaluatedList rows rules accuracy =>
    [("rows", rows.repr), ("rules", rules.repr), ("accuracy", Decimal.text accuracy)]
  | refusedRules e => [("error", e.message)]
  | importedRules rules nodes visible => [("rules", rules.repr), ("nodes", nodes.repr), ("visible", visible.repr)]
  | changedRows rows visible accuracy =>
    [("rows", rows.repr), ("visible", visible.repr), ("accuracy", Decimal.text accuracy)]
  | appliedRuleFilter visible => [("visible", visible.repr)]

end Event

end FirstMatch
