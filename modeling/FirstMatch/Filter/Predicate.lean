import FirstMatch.Rule

/-!
# Predicates on cells

A predicate bounds a number from below or from above, or lists the values it accepts. It is read in two ways: `admits` says which
cells pass it, and `compatible` whether a condition could still be met by a value that passes it.
-/

namespace FirstMatch

/-- A constraint on the cell of a feature. -/
inductive Predicate where
  | atLeast (bound : Float)
  | atMost (bound : Float)
  | oneOf (values : List Value)

namespace Predicate

/-- Whether a cell passes. A missing cell passes nothing, and a text no bound. -/
def admits (p : Predicate) : Cell → Bool
  | none => false
  | some v =>
    match p with
    | atLeast bound => v.number?.any fun x => bound ≤ x
    | atMost bound => v.number?.any fun x => x ≤ bound
    | oneOf values => values.contains v

/-- Whether some value that passes could meet a condition. -/
def compatible (p : Predicate) (c : Condition) : Bool :=
  match p with
  | oneOf values => values.any fun v => (v.compare c.op c.value).getD false
  | atLeast bound =>
    match c.op with
    | .ne | .gt | .ge => true
    | .eq | .le => c.value.number?.any fun x => bound ≤ x
    | .lt => c.value.number?.any fun x => bound < x
  | atMost bound =>
    match c.op with
    | .ne | .lt | .le => true
    | .eq | .ge => c.value.number?.any fun x => x ≤ bound
    | .gt => c.value.number?.any fun x => x < bound

/-- Whether the predicate is a bound, which only a numeric feature may have. -/
def isRange : Predicate → Bool
  | oneOf _ => false
  | _ => true

/-- The predicate with the texts it lists read as cells are read, so that the text of a number accepts that number. -/
def reread : Predicate → Predicate
  | oneOf values =>
    oneOf (values.map fun
      | .text s => Value.ofToken s.toList
      | .number x => .number x)
  | p => p

end Predicate

end FirstMatch
