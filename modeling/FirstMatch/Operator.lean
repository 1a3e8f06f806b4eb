/-!
# Comparison operators

The six operators a condition may use. Each has an ASCII spelling, and the three that join two signs have a one-character glyph
as well. Text is searched for the spellings in the order of `Operator.spellings`, in which no spelling stands after a part of
itself.
-/

namespace FirstMatch

/-- A comparison operator. -/
inductive Operator where
  | eq | ne | gt | ge | lt | le
  deriving DecidableEq, Repr

namespace Operator

/-- The ASCII spelling. -/
def symbol : Operator → String
  | eq => "="
  | ne => "!="
  | gt => ">"
  | ge => ">="
  | lt => "<"
  | le => "<="

/-- The spelling of one character. -/
def glyph : Operator → String
  | ne => "≠"
  | ge => "≥"
  | le => "≤"
  | op => op.symbol

/-- Every spelling with its operator, in the order in which a text is searched for them. -/
def spellings : List (List Char × Operator) :=
  [(['!', '='], ne), (['≠'], ne), (['>', '='], ge), (['≥'], ge), (['<', '='], le), (['≤'], le), (['>'], gt), (['<'], lt),
    (['='], eq)]

/-- The operator a whole text spells. -/
def ofSpelling? (t : List Char) : Option Operator := (spellings.find? (·.1 = t)).map (·.2)

/-- Whether the operator needs operands that are ordered, that is numbers. -/
def isOrdering : Operator → Bool
  | eq | ne => false
  | _ => true

/-- Whether an operator that needs ordered operands accepts the way they compare. -/
def accepts : Operator → Ordering → Bool
  | eq, o => o.isEq
  | ne, o => o.isNe
  | gt, o => o.isGT
  | ge, o => o.isGE
  | lt, o => o.isLT
  | le, o => o.isLE

@[simp] theorem ofSpelling_symbol (op : Operator) : ofSpelling? op.symbol.toList = some op := by
  cases op <;> decide

@[simp] theorem ofSpelling_glyph (op : Operator) : ofSpelling? op.glyph.toList = some op := by
  cases op <;> decide

end Operator

end FirstMatch
