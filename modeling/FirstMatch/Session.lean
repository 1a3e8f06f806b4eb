import FirstMatch.Dataset.Reader
import FirstMatch.Filter.PatternFilter
import FirstMatch.Graph
import FirstMatch.Ranking
import FirstMatch.RuleText.List
import FirstMatch.Session.Config
import FirstMatch.Session.Event

/-!
# Sessions

A session holds a dataset, the decision list learned from it, the filters in force, and every view derived from these. A new
dataset clears what belonged to the old one. A new filter of rows evaluates the list again over the rows kept; a new filter of
rules evaluates nothing. Every call answers with the session after it, the events on the way, and the reason if it was refused.
-/

namespace FirstMatch

/-- A decision list and every view derived from it. -/
structure Analysis where
  list : DecisionList
  ranked : List RankedFeature
  graph : Graph
  /-- The evaluation over the rows that the filters keep. -/
  evaluation : Evaluation Float
  /-- The rules that the rule filter keeps. -/
  visible : List Nat

/-- One course of analysis. -/
structure Session where
  config : Config
  dataset? : Option Dataset
  analysis? : Option Analysis
  criteria : Criteria
  patterns : PatternFilter
  ruleFilter : RuleFilter
  /-- The rows that the criteria and the patterns keep. -/
  filtered : List Nat

/-- What a call does. -/
structure Reply where
  session : Session
  events : List Event
  outcome : Except Error Unit

/-- An evaluation was made over some rows. -/
def Evaluation.event (e : Evaluation Float) : Event := .evaluatedList e.aggregate.rows e.rules.length e.aggregate.accuracy

namespace Session

/-- A session before its first call. -/
def new (config : Config) : Session := ⟨config, none, none, .empty, {}, config.ruleFilter, []⟩

/-! ## Imports -/

/-- The session with another dataset. Lists and filters of rows belong to the old one and go with it, and the rule filter is the
configured one again. -/
def replaceDataset (s : Session) (d : Dataset) : Session :=
  { s with
    dataset? := some d
    analysis? := none
    criteria := .empty
    patterns := {}
    ruleFilter := s.config.ruleFilter
    filtered := d.indices }

/-- A dataset is imported from its text. -/
def importDataset (s : Session) (text : String) : Reply :=
  match Table.read s.config.delimiter text with
  | .error e => ⟨s, [.refusedDataset (.grammar e)], .error (.grammar e)⟩
  | .ok t =>
    let stage := Event.readDataset t.header.length t.rows.length
    match Dataset.ofTable t s.config.labelColumn with
    | .error e => ⟨s, [stage, .refusedDataset (.schema e)], .error (.schema e)⟩
    | .ok d =>
      let imported := Event.importedDataset d.size d.catalog.size d.catalog.labelFeature.count
      ⟨s.replaceDataset d, [stage, imported], .ok ()⟩

/-- The analysis of a list over the session's rows, with the events on the way: features are ranked, the graph is compiled in
their order, the list is evaluated, and the rule filter is applied. -/
def analyze (s : Session) (d : Dataset) (l : DecisionList) : List Event × Except Error Analysis :=
  let ranked := l.ranking d.catalog
  match l.compile d.catalog (ranked.map (·.feature)) with
  | .error e => ([], .error (.structural e))
  | .ok graph =>
    let evaluation := l.evaluate d s.filtered
    let stages := [Event.compiledGraph graph.size graph.depth graph.height, evaluation.event]
    match s.ruleFilter.apply l evaluation.rules d.catalog s.criteria with
    | .error e => (stages, .error (.schema e))
    | .ok visible => (stages, .ok ⟨l, ranked, graph, evaluation, visible⟩)

/-- The analysis of the list a text writes, with the events on the way. -/
def analyzeText (s : Session) (text : String) : List Event × Except Error Analysis :=
  match s.dataset? with
  | none => ([], .error (.schema .noDataset))
  | some d =>
    let lines := (RuleText.linesRead d.catalog (RuleText.contentLines text.toList)).map fun (line, isDefault) =>
      Event.readRuleLine line isDefault
    match DecisionList.read text d.catalog with
    | .error e => (lines, .error e)
    | .ok l =>
      let (stages, result) := s.analyze d l
      (lines ++ stages, result)

/-- A decision list is imported from its text. -/
def importRules (s : Session) (text : String) : Reply :=
  match s.analyzeText text with
  | (stages, .error e) => ⟨s, stages ++ [.refusedRules e], .error e⟩
  | (stages, .ok a) =>
    let imported := Event.importedRules a.list.size a.graph.size a.visible.length
    ⟨{ s with analysis? := some a }, stages ++ [imported], .ok ()⟩

/-- The text of a file, if there is a file and it holds text. -/
def textOf? (file : Option ByteArray) : Option String := file.bind String.fromUTF8?

/-- A dataset is imported from a file. -/
def importDatasetFile (s : Session) (file : Option ByteArray) : Reply :=
  match textOf? file with
  | none => ⟨s, [], .error .unreadable⟩
  | some text => s.importDataset text

/-- A decision list is imported from a file. -/
def importRulesFile (s : Session) (file : Option ByteArray) : Reply :=
  match textOf? file with
  | none => ⟨s, [], .error .unreadable⟩
  | some text => s.importRules text

/-! ## Filters -/

/-- The rows of the whole dataset that criteria and then patterns keep. -/
def keptRows (s : Session) (criteria : Criteria) (patterns : PatternFilter) : Except SchemaError (List Nat) :=
  match s.dataset? with
  | none => .error .noDataset
  | some d => do
    let rows ← criteria.apply d d.indices
    patterns.apply d rows

/-- The session with other filters of rows and the rows that they keep. -/
def withRows (s : Session) (criteria : Criteria) (patterns : PatternFilter) (rows : List Nat) : Session :=
  { s with criteria, patterns, filtered := rows }

/-- Other filters of rows come into force. With a list, it is evaluated over the rows kept, and then the rule filter is applied:
were that refused, the new evaluation would stand already. -/
def adoptRows (s : Session) (criteria : Criteria) (patterns : PatternFilter) (rows : List Nat) : Reply :=
  match s.dataset?, s.analysis? with
  | some d, some a =>
    let evaluation := a.list.evaluate d rows
    match s.ruleFilter.apply a.list evaluation.rules d.catalog criteria with
    | .error e => ⟨{ s with analysis? := some { a with evaluation } }, [evaluation.event], .error (.schema e)⟩
    | .ok visible =>
      let changed := Event.changedRows rows.length visible.length evaluation.aggregate.accuracy
      ⟨{ s.withRows criteria patterns rows with analysis? := some { a with evaluation, visible } },
        [evaluation.event, changed], .ok ()⟩
  | _, _ => ⟨s.withRows criteria patterns rows, [], .ok ()⟩

/-- The rows are filtered by criteria and patterns. -/
def setRows (s : Session) (criteria : Criteria) (patterns : PatternFilter) : Reply :=
  match s.keptRows criteria patterns with
  | .error e => ⟨s, [], .error (.schema e)⟩
  | .ok rows => s.adoptRows criteria patterns rows

/-- Other criteria come into force; the patterns stay. -/
def setCriteria (s : Session) (criteria : Criteria) : Reply := s.setRows criteria s.patterns

/-- Other patterns come into force; the criteria stay. -/
def setPatterns (s : Session) (patterns : PatternFilter) : Reply := s.setRows s.criteria patterns

/-- Another rule filter comes into force. Its features of interest must exist as soon as there is a dataset. -/
def setRuleFilter (s : Session) (f : RuleFilter) : Reply :=
  match s.dataset?, s.analysis? with
  | some d, some a =>
    match f.apply a.list a.evaluation.rules d.catalog s.criteria with
    | .error e => ⟨s, [], .error (.schema e)⟩
    | .ok visible =>
      ⟨{ s with analysis? := some { a with visible }, ruleFilter := f }, [.appliedRuleFilter visible.length], .ok ()⟩
  | some d, none =>
    match f.interestIn d.catalog with
    | .error e => ⟨s, [], .error (.schema e)⟩
    | .ok _ => ⟨{ s with ruleFilter := f }, [], .ok ()⟩
  | none, _ => ⟨{ s with ruleFilter := f }, [], .ok ()⟩

end Session

end FirstMatch
