import FirstMatch.Value

/-!
# Why an input is refused

Every refusal names its cause. A grammar error belongs to a line of the text read (or, for a list made without text, to the
position of a rule), a schema error to a name or value that the table does not know, a structural error to the graph a list is
compiled into. The wording of each is given once, by `message`.
-/

namespace FirstMatch

/-- What is wrong with a line. -/
inductive GrammarFault where
  | badPrefix
  | missingThen
  | missingCounts
  | badCounts (counts : String)
  | noOperator (condition : String)
  | incompleteCondition (condition : String)
  | emptyLabel
  | incomparableValue (feature : String) (op : Operator) (value : Value)
  | duplicateFeature (feature : String)
  | missingDefault
  | defaultNotLast
  | emptyList
  | unterminatedQuote
  | raggedRow (expected found : Nat)

/-- The wording of a fault. -/
def GrammarFault.message : GrammarFault → String
  | badPrefix => "rule must start with 'if' or 'else'"
  | missingThen => "missing 'then' between conditions and label"
  | missingCounts => "missing '(<tp>/<fp>)' counts"
  | badCounts counts => "invalid counts '" ++ counts ++ "'"
  | noOperator condition => "no comparison operator in condition '" ++ condition ++ "'"
  | incompleteCondition condition => "condition '" ++ condition ++ "' is missing its feature or value"
  | emptyLabel => "empty label"
  | incomparableValue feature op value =>
    "'" ++ value.render ++ "' cannot be compared with '" ++ op.symbol ++ "' on feature '" ++ feature ++ "'"
  | duplicateFeature feature => "feature '" ++ feature ++ "' appears more than once in one rule"
  | missingDefault => "rule list has no default ('else') rule"
  | defaultNotLast => "default rule must be the last rule"
  | emptyList => "rule list is empty"
  | unterminatedQuote => "unterminated quoted field"
  | raggedRow expected found => "row has " ++ found.repr ++ " cells, header has " ++ expected.repr

/-- A refused line of a rule or table text; lines count from one. -/
structure GrammarError where
  line : Nat
  fault : GrammarFault

/-- The wording of a grammar error. -/
def GrammarError.message (e : GrammarError) : String :=
  "grammar error at line " ++ e.line.repr ++ ": " ++ e.fault.message

/-- A table or a rule that disagrees with the features declared. -/
inductive SchemaError where
  | noLabel (column : String)
  | emptyHeader
  | duplicateColumn (name : String)
  | rowWidth (row expected found : Nat)
  | noDataset
  | unknownFeature (feature : String)
  | nonNumericRange (feature : String)
  | unknownRuleFeature (line : Nat) (feature : String)
  | labelNotInDomain (line : Nat) (label : Value)
  | conditionOnLabel (line : Nat) (feature : String)

/-- The wording of a schema error. -/
def SchemaError.message : SchemaError → String
  | noLabel column => "no label defined in dataset; name the label column '" ++ column ++ "'"
  | emptyHeader => "dataset has an empty header row"
  | duplicateColumn name => "duplicate column name '" ++ name ++ "'"
  | rowWidth row expected found =>
    "row " ++ row.repr ++ " has " ++ found.repr ++ " cells, expected " ++ expected.repr
  | noDataset => "no dataset loaded; import a dataset before its rules"
  | unknownFeature feature => "feature '" ++ feature ++ "' does not exist"
  | nonNumericRange feature => "feature '" ++ feature ++ "' is not numeric and cannot take a range criterion"
  | unknownRuleFeature line feature => "line " ++ line.repr ++ ": feature '" ++ feature ++ "' does not exist"
  | labelNotInDomain line label =>
    "line " ++ line.repr ++ ": label '" ++ label.render ++ "' does not occur in the label set"
  | conditionOnLabel line feature =>
    "line " ++ line.repr ++ ": rule conditions on the label feature '" ++ feature ++ "'"

/-- A list that no graph can be compiled from. -/
inductive StructuralError where
  | cycle (ordered total : Nat)
  | unrankedFeature (rule : Nat) (feature : String)
  | boundExceeded (bound : Nat)
  | emptyList
  deriving DecidableEq, Repr

/-- The wording of a structural error. -/
def StructuralError.message : StructuralError → String
  | cycle ordered total =>
    "cycle detected: only " ++ ordered.repr ++ " of " ++ total.repr ++ " nodes could be ordered"
  | unrankedFeature rule feature =>
    "rule " ++ rule.repr ++ " conditions on feature '" ++ feature ++ "', which is missing from the feature order"
  | boundExceeded bound => "graph construction exceeded its bound of " ++ bound.repr ++ " steps"
  | emptyList => "decision list is empty"

/-- Any refusal. -/
inductive Error where
  | grammar (e : GrammarError)
  | schema (e : SchemaError)
  | structural (e : StructuralError)
  /-- The pattern given for a feature does not follow the grammar of patterns. -/
  | pattern (feature : String)
  /-- A file is missing or does not hold text. -/
  | unreadable

/-- The wording of a refusal. -/
def Error.message : Error → String
  | grammar e => e.message
  | schema e => e.message
  | structural e => e.message
  | pattern feature => "invalid pattern for feature '" ++ feature ++ "'"
  | unreadable => "file cannot be read as text"

end FirstMatch
