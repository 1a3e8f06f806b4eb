import FirstMatch.Session

/-!
# Runs of a session

A session is called again and again, and some of the calls are refused. The calls that it accepted tell which arguments are in
force: of each kind the latest, but none from before the latest import of a dataset.
-/

namespace FirstMatch

/-- A call of a session. -/
inductive Call where
  | importDataset (text : String)
  | importDatasetFile (file : Option ByteArray)
  | importRules (text : String)
  | importRulesFile (file : Option ByteArray)
  | setCriteria (criteria : Criteria)
  | setPatterns (patterns : PatternFilter)
  | setRuleFilter (f : RuleFilter)

namespace Call

/-- The text of the dataset that a call imports. -/
def datasetText? : Call → Option String
  | importDataset text => some text
  | importDatasetFile file => Session.textOf? file
  | _ => none

/-- The text of the rules that a call imports. -/
def rulesText? : Call → Option String
  | importRules text => some text
  | importRulesFile file => Session.textOf? file
  | _ => none

/-- The criteria that a call sets. -/
def criteria? : Call → Option Criteria
  | setCriteria criteria => some criteria
  | _ => none

/-- The patterns that a call sets. -/
def patterns? : Call → Option PatternFilter
  | setPatterns patterns => some patterns
  | _ => none

/-- The rule filter that a call sets. -/
def ruleFilter? : Call → Option RuleFilter
  | setRuleFilter f => some f
  | _ => none

/-- The latest argument of a kind among calls, the latest of which comes first, since the latest import of a dataset. -/
def last? {α : Type} (argument? : Call → Option α) (calls : List Call) : Option α :=
  (calls.takeWhile (·.datasetText?.isNone)).findSome? argument?

end Call

/-- A call is made. -/
def Session.perform (s : Session) : Call → Reply
  | .importDataset text => s.importDataset text
  | .importDatasetFile file => s.importDatasetFile file
  | .importRules text => s.importRules text
  | .importRulesFile file => s.importRulesFile file
  | .setCriteria criteria => s.setCriteria criteria
  | .setPatterns patterns => s.setPatterns patterns
  | .setRuleFilter f => s.setRuleFilter f

/-- A session and the calls it has accepted, the latest first. -/
structure Run where
  session : Session
  accepted : List Call

namespace Run

/-- The run before its first call. -/
def start (config : Config) : Run := ⟨.new config, []⟩

/-- The run after one more call. -/
def next (r : Run) (c : Call) : Run :=
  let reply := r.session.perform c
  match reply.outcome with
  | .ok () => ⟨reply.session, c :: r.accepted⟩
  | .error _ => ⟨reply.session, r.accepted⟩

/-- The run of a sequence of calls. -/
def ofCalls (config : Config) (calls : List Call) : Run := calls.foldl next (start config)

end Run

end FirstMatch
