import FirstMatch.RuleText.Line

/-!
# The text of a decision list

A list is written one rule a line. Blanks around a line do not count, blank lines are passed over, and a line may be quoted as a
whole, as a spreadsheet quotes a cell. Each line is checked against the catalog before the next is read, so the first line that
is wrong in any way is the reason of refusal.
-/

namespace FirstMatch.RuleText

/-- The text with each pair of quotes made one. -/
def undouble : List Char → List Char
  | '"' :: '"' :: r => '"' :: undouble r
  | c :: r => c :: undouble r
  | [] => []

/-- What a line quoted as a whole holds; another line is left as it is. -/
def unquote : List Char → List Char
  | '"' :: r => if r.getLast? = some '"' then undouble r.dropLast else '"' :: r
  | t => t

/-- What a line says. -/
def content (line : List Char) : List Char := Text.trim (unquote (Text.trim line))

/-- The lines of a text that say something, with their numbers. -/
def contentLines (text : List Char) : List (Nat × List Char) :=
  ((Text.lines text).zipIdx 1).filterMap fun (line, n) => if (content line).isEmpty then none else some (n, content line)

/-- The draft of a line. -/
def draftOf (c : Catalog) (n : Nat) (t : List Char) : Except Error RuleDraft :=
  match readLine c.containsAnd n t with
  | .ok d => .ok d
  | .error e => .error (.grammar e)

/-- The rules of numbered lines, with the numbers. -/
def rulesOf (c : Catalog) : List (Nat × List Char) → Except Error (List (Nat × Rule))
  | [] => .ok []
  | (n, t) :: rest => do
    let draft ← draftOf c n t
    let rule ← draft.resolve c n
    let others ← rulesOf c rest
    return (n, rule) :: others

/-- The numbered lines that follow the grammar, each with whether its rule is a default rule, up to and with the first that is
refused for another reason and before the first that does not follow it. -/
def linesRead (c : Catalog) : List (Nat × List Char) → List (Nat × Bool)
  | [] => []
  | (n, t) :: rest =>
    match draftOf c n t with
    | .error _ => []
    | .ok draft =>
      (n, draft.isDefault) ::
        match draft.resolve c n with
        | .error _ => []
        | .ok _ => linesRead c rest

end FirstMatch.RuleText

namespace FirstMatch

/-- The decision list a text writes, against a catalog. -/
def DecisionList.read (text : String) (c : Catalog) : Except Error DecisionList := do
  DecisionList.ofRules (← RuleText.rulesOf c (RuleText.contentLines text.toList))

end FirstMatch
