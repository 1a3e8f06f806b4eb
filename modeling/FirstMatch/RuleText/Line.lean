import FirstMatch.DecisionList.Draft
import FirstMatch.Text.Cut

/-!
# The line of a rule

A rule is written `if <feature> <op> <literal> and ... then <label> (<tp>/<fp>)`, a default rule `else <label> (<tp>/<fp>)`. A
line is taken apart from its end: the counts after the last opening parenthesis, then the label after the last `then`, then
the conditions between the `and`s. The operator of a condition is the first spelling, in the order of `Operator.spellings`, that
occurs anywhere in it, at its first occurrence.
-/

namespace FirstMatch.RuleText

/-- The word between two conditions. -/
def andWord : List Char := [' ', 'a', 'n', 'd', ' ']

/-- The word between the conditions and the label. -/
def thenWord : List Char := [' ', 't', 'h', 'e', 'n', ' ']

/-- Whether a character may stand between the parts of a rule: a space or a tab. -/
def isSpace (c : Char) : Bool := c == ' ' || c == '\t'

/-- The text without the spaces and tabs it begins with. -/
def skipSpaces (t : List Char) : List Char := t.dropWhile isSpace

/-! ## Counts -/

/-- A count below 2⁶⁴ at the beginning of a text, without needless zeros, and what follows it. -/
def takeCount? : List Char → Option (UInt64 × List Char)
  | [] => none
  | '0' :: r => some (0, r)
  | t =>
    let n := Decimal.ofDigits (t.takeWhile Char.isDigit)
    if (t.takeWhile Char.isDigit).isEmpty || UInt64.size ≤ n then none else some (n.toUInt64, t.dropWhile Char.isDigit)

/-- The counts a whole text writes: two counts with a stroke between them, in parentheses. -/
def readCounts? (t : List Char) : Option ReportedCounts := do
  let t ← Text.dropBeginning? ['('] t
  let (trueCount, t) ← takeCount? (skipSpaces t)
  let t ← Text.dropBeginning? ['/'] (skipSpaces t)
  let (falseCount, t) ← takeCount? (skipSpaces t)
  let t ← Text.dropBeginning? [')'] (skipSpaces t)
  if t.isEmpty then some ⟨trueCount, falseCount⟩ else none

/-! ## Conditions -/

/-- The operator of a condition, with the texts before and after it. -/
def findOperator? (t : List Char) : Option (List Char × Operator × List Char) :=
  Operator.spellings.findSome? fun (spelling, op) =>
    (Text.cutFirst spelling t).map fun (before, rest) => (before, op, rest)

/-- Fragments as conditions. With `merge`, a fragment without an operator is a part of a feature's name: it waits in `pending`
and is glued to the next. What still waits at the end stands alone. -/
def gather (merge : Bool) (pending : Option (List Char)) : List (List Char) → List (List Char)
  | [] => pending.toList
  | fragment :: rest =>
    let whole :=
      match pending with
      | none => fragment
      | some before => before ++ andWord ++ fragment
    if merge && (findOperator? whole).isNone then gather merge (some whole) rest else whole :: gather merge none rest

/-- The conditions of a body. -/
def splitConditions (merge : Bool) (body : List Char) : List (List Char) :=
  gather merge none (Text.splitOn ' ' ['a', 'n', 'd', ' '] body)

/-- The condition a text writes. -/
def readCondition (line : Nat) (t : List Char) : Except GrammarError ConditionDraft :=
  match findOperator? t with
  | none => .error ⟨line, .noOperator (String.ofList (Text.trim t))⟩
  | some (before, op, rest) =>
    let feature := Text.trim before
    let literal := Text.trim rest
    if feature.isEmpty || literal.isEmpty then .error ⟨line, .incompleteCondition (String.ofList (Text.trim t))⟩
    else .ok ⟨String.ofList feature, op, Value.ofToken literal⟩

/-- The conditions texts write, up to the first that writes none. -/
def readConditions (line : Nat) : List (List Char) → Except GrammarError (List ConditionDraft)
  | [] => .ok []
  | t :: rest => do
    let condition ← readCondition line t
    let others ← readConditions line rest
    return condition :: others

/-! ## Lines -/

/-- The label a text writes. -/
def readLabel (line : Nat) (t : List Char) : Except GrammarError Value :=
  let label := Text.trim t
  if label.isEmpty then .error ⟨line, .emptyLabel⟩ else .ok (Value.ofToken label)

/-- What a line announces by its first word, and the text after that word. -/
inductive Opening where
  | conditional (rest : List Char)
  | default (rest : List Char)

/-- The text after at least one space or tab. -/
def afterSpaces? (t : List Char) : Option (List Char) :=
  if (t.takeWhile isSpace).isEmpty then none else some (skipSpaces t)

/-- The word a rule begins with, apart from what follows by spaces or tabs. -/
def opening? (t : List Char) : Option Opening :=
  match Text.dropBeginning? ['i', 'f'] t with
  | some r => (afterSpaces? r).map .conditional
  | none => ((Text.dropBeginning? ['e', 'l', 's', 'e'] t).bind afterSpaces?).map .default

/-- Whether a head breaks off where the label should stand. -/
def lacksLabel (head : List Char) : Bool :=
  head == ['e', 'l', 's', 'e'] || (Text.dropBeginning? [' ', 't', 'h', 'e', 'n'].reverse head.reverse).isSome

/-- The rule of a head, the text before the counts. -/
def readHead (merge : Bool) (line : Nat) (head : List Char) (reported : ReportedCounts) : Except GrammarError RuleDraft :=
  if lacksLabel head then .error ⟨line, .emptyLabel⟩
  else
    match opening? head with
    | none => .error ⟨line, .badPrefix⟩
    | some (.default rest) => do
      let label ← readLabel line rest
      return ⟨[], some label, reported⟩
    | some (.conditional rest) =>
      match Text.cutLast thenWord rest with
      | none => .error ⟨line, .missingThen⟩
      | some (body, tail) => do
        let conditions ← readConditions line (splitConditions merge body)
        let label ← readLabel line tail
        return ⟨conditions, some label, reported⟩

/-- The rule of a line that is not blank. -/
def readLine (merge : Bool) (line : Nat) (t : List Char) : Except GrammarError RuleDraft :=
  match Text.cutLast ['('] t with
  | none => .error ⟨line, .missingCounts⟩
  | some (head, tail) =>
    let counts := Text.trim ('(' :: tail)
    match readCounts? counts with
    | none => .error ⟨line, .badCounts (String.ofList counts)⟩
    | some reported => readHead merge line (Text.trim head) reported

end FirstMatch.RuleText
