import FirstMatch.Interchange.Document
import FirstMatch.Session.Config

/-!
# Values, filters and settings as documents

Each kind of data has one written form, and its reader accepts that form. Nothing is corrected on reading: a text stays the text
it is, also where a dataset would take it for a number.
-/

namespace FirstMatch

/-! ## Values and operators -/

/-- The document of a value: its kind and its content. -/
def Value.toDocument : Value → Document
  | number x => .record [("Number", .real x)]
  | text s => .record [("Text", .text s)]

/-- The value of a document. -/
def Value.ofDocument? (d : Document) : Option Value :=
  match d.choice? with
  | some ("Number", some content) => content.float?.map .number
  | some ("Text", some content) => content.text?.map .text
  | _ => none

/-- The name of an operator in documents. -/
def Operator.name : Operator → String
  | eq => "Eq"
  | ne => "Neq"
  | gt => "Gt"
  | ge => "Gte"
  | lt => "Lt"
  | le => "Lte"

/-- The document of an operator. -/
def Operator.toDocument (op : Operator) : Document := .text op.name

/-- The operator of a document. Its name may also be given as a choice without content. -/
def Operator.ofDocument? (d : Document) : Option Operator :=
  let named (name : String) := [eq, ne, gt, ge, lt, le].find? (·.name == name)
  match d.choice? with
  | some (name, none) => named name
  | some (name, some .null) => named name
  | _ => none

/-! ## Counts -/

/-- The document of reported counts. -/
def ReportedCounts.toDocument (r : ReportedCounts) : Document :=
  .record [("true_count", .integer r.trueCount.toNat), ("false_count", .integer r.falseCount.toNat)]

/-- The reported counts of a document. -/
def ReportedCounts.ofDocument? (d : Document) : Option ReportedCounts :=
  match d.fields? ["true_count", "false_count"] with
  | some [some t, some f] => do return ⟨← t.count?, ← f.count?⟩
  | _ => none

/-! ## Filters -/

/-- The document of a predicate. -/
def Predicate.toDocument : Predicate → Document
  | atLeast bound => .record [("AtLeast", .real bound)]
  | atMost bound => .record [("AtMost", .real bound)]
  | oneOf values => .record [("OneOf", .list (values.map Value.toDocument))]

/-- The predicate of a document. -/
def Predicate.ofDocument? (d : Document) : Option Predicate :=
  match d.choice? with
  | some ("AtLeast", some content) => content.float?.map .atLeast
  | some ("AtMost", some content) => content.float?.map .atMost
  | some ("OneOf", some content) => (content.list? Value.ofDocument?).map .oneOf
  | _ => none

/-- The document of criteria. -/
def Criteria.toDocument (c : Criteria) : Document :=
  .record [("entries", .record (c.entries.map fun (name, ps) => (name, .list (ps.map Predicate.toDocument))))]

/-- The criteria of a document. -/
def Criteria.ofDocument? (d : Document) : Option Criteria :=
  match d.fields? ["entries"] with
  | some [some entries] => (entries.record? (Document.list? Predicate.ofDocument?)).map Criteria.ofEntries
  | _ => none

/-- The document of a rule filter. -/
def RuleFilter.toDocument (f : RuleFilter) : Document :=
  .record [("min_support", .real f.minSupport), ("min_confidence", .real f.minConfidence),
    ("interest", .list (f.interest.map .text))]

/-- The rule filter of a document. -/
def RuleFilter.ofDocument? (d : Document) : Option RuleFilter :=
  match d.fields? ["min_support", "min_confidence", "interest"] with
  | some [some support, some confidence, some interest] => do
    return ⟨← support.float?, ← confidence.float?, ← interest.list? Document.text?⟩
  | _ => none

/-! ## Settings -/

/-- The document of a session's settings. -/
def Config.toDocument (c : Config) : Document :=
  .record [("delimiter", .text (String.singleton c.delimiter)), ("label_column", .text c.labelColumn),
    ("rule_filter", c.ruleFilter.toDocument)]

/-- What a field holds, or what stands for it where it is missing. -/
def orElse {α : Type} (read : Document → Option α) (default : α) : Option Document → Option α
  | none => some default
  | some d => read d

/-- The settings of a document; what is missing has its usual value. -/
def Config.ofDocument? (d : Document) : Option Config :=
  let usual : Config := {}
  match d.fields? ["delimiter", "label_column", "rule_filter"] with
  | some [delimiter, label, filter] => do
    return ⟨← orElse Document.char? usual.delimiter delimiter, ← orElse Document.text? usual.labelColumn label,
      ← orElse RuleFilter.ofDocument? usual.ruleFilter filter⟩
  | _ => none

end FirstMatch
