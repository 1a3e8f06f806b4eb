import FirstMatch.Pattern.Syntax

/-!
# Plans

A plan is what the automaton of a pattern is built of. Characters in a row make one literal, branches that are characters make one
set, groups leave no trace unless their text is remembered, a beginning that all branches have in common stands before the choice,
and a repetition of what matches only the empty text has one turn at most. A plan and its pattern match the same texts.
-/

namespace FirstMatch

/-- A plan of an automaton. Of two plans in a row or of two branches, the first is no such pair itself. -/
inductive Plan where
  | empty
  /-- Characters in a row, by their codes. -/
  | literal (codes : List Nat)
  /-- One character of a set, which does not consist of just one. -/
  | choice (s : CharSet)
  | assert (a : Assertion)
  | times (p : Plan) (least : Nat) (most? : Option Nat) (lazy : Bool)
  | remember (p : Plan)
  | seq (p q : Plan)
  | alt (p q : Plan)
  deriving DecidableEq, Repr

namespace Plan

/-! ## Parts -/

/-- The plans in a row. -/
def parts : Plan → List Plan
  | empty => []
  | seq p q => p :: q.parts
  | p => [p]

/-- Plans in a row. -/
def ofParts : List Plan → Plan
  | [] => empty
  | [p] => p
  | p :: r => seq p (ofParts r)

/-- One more plan at the beginning of a row, where literals that meet are joined. -/
def consPart (p : Plan) (r : List Plan) : List Plan :=
  match p, r with
  | literal a, literal b :: r => literal (a ++ b) :: r
  | p, r => p :: r

/-- Rows one after another. -/
def joinParts (rs : List (List Plan)) : Plan := ofParts (rs.flatten.foldr consPart [])

/-- The branches of a choice. -/
def branches : Plan → List Plan
  | alt p q => p :: q.branches
  | p => [p]

/-- The literals of a plan that is a choice between literals. -/
def literals? (p : Plan) : Option (List (List Nat)) :=
  p.branches.mapM fun
    | literal codes => some codes
    | _ => none

/-- A choice between branches. -/
def ofBranches : List Plan → Plan
  | [] => choice .none
  | [p] => p
  | p :: r => alt p (ofBranches r)

/-- One character of a set. -/
def ofSet (s : CharSet) : Plan :=
  match s.only? with
  | some code => literal [code]
  | none => choice s

/-! ## Properties -/

/-- A number of bytes that no match is shorter than, unless a part of the plan matches nothing at all. -/
def least? : Plan → Option Nat
  | empty => some 0
  | literal codes => some codes.length
  | choice s => if s.changes.isEmpty then none else some 1
  | assert _ => some 0
  | times p least _ _ => p.least?.map (· * least)
  | remember p => p.least?
  | seq p q => p.least?.bind fun m => q.least?.map (m + ·)
  | alt p q => p.least?.bind fun m => q.least?.map (min m ·)

/-- Whether nothing but the empty text matches. -/
def matchesEmptyOnly : Plan → Bool
  | empty => true
  | literal _ => false
  | choice _ => false
  | assert _ => true
  | times p _ most? _ => most?.isSome && p.matchesEmptyOnly
  | remember p => p.matchesEmptyOnly
  | seq p q => p.matchesEmptyOnly && q.matchesEmptyOnly
  | alt p q => p.matchesEmptyOnly && q.matchesEmptyOnly

/-- Whether a part of the matching text is remembered. -/
def remembers : Plan → Bool
  | times p _ _ _ => p.remembers
  | remember _ => true
  | seq p q => p.remembers || q.remembers
  | alt p q => p.remembers || q.remembers
  | _ => false

/-- Whether a place in the text is asked about. -/
def asserts : Plan → Bool
  | assert _ => true
  | times p _ _ _ => p.asserts
  | remember p => p.asserts
  | seq p q => p.asserts || q.asserts
  | alt p q => p.asserts || q.asserts
  | _ => false

/-- Whether every match begins at the start of the text. -/
def holdsStart : Plan → Bool
  | assert a => a = .textStart
  | times p least _ _ => least != 0 && p.holdsStart
  | remember p => p.holdsStart
  | seq p q => p.holdsStart || (p.matchesEmptyOnly && q.holdsStart)
  | alt p q => p.holdsStart && q.holdsStart
  | _ => false

/-- Whether every match ends at the end of the text. -/
def holdsEnd : Plan → Bool
  | assert a => a = .textEnd
  | times p least _ _ => least != 0 && p.holdsEnd
  | remember p => p.holdsEnd
  | seq p q => q.holdsEnd || (q.matchesEmptyOnly && p.holdsEnd)
  | alt p q => p.holdsEnd && q.holdsEnd
  | _ => false

/-! ## Choices -/

/-- The set of a plan that is one character of a set. -/
def set? : Plan → Option CharSet
  | choice s => some s
  | _ => none

/-- The set of a plan that is one character. -/
def single? : Plan → Option CharSet
  | literal [code] => some (.ofCodes [code])
  | _ => none

/-- The set of branches that are all characters, or all sets of them. -/
def united? (ps : List Plan) : Option CharSet :=
  ((ps.mapM single?).or (ps.mapM set?)).map (·.foldl CharSet.union .none)

/-- The parts that two rows begin with. What is remembered in one place is never the same as in another. -/
def commonParts : List Plan → List Plan → List Plan
  | p :: r, q :: s => if p = q ∧ p.remembers = false then p :: commonParts r s else []
  | _, _ => []

/-- The parts that all branches begin with, if each is a row. -/
def sharedParts (ps : List Plan) : List Plan :=
  match ps.map parts with
  | first :: rest => if (first :: rest).all (1 < ·.length) then rest.foldl commonParts first else []
  | [] => []

/-- A choice between plans. What all branches begin with is taken out, and the rest is a choice again, with fewer parts. -/
def choose (fuel : Nat) (ps : List Plan) : Plan :=
  let ps := ps.flatMap branches
  match united? ps, fuel, sharedParts ps with
  | some s, _, _ => ofSet s
  | none, fuel + 1, shared@(_ :: _) =>
    joinParts [shared, (choose fuel (ps.map fun p => ofParts (p.parts.drop shared.length))).parts]
  | none, _, _ => ofBranches ps

/-- The number of plans that a plan is made of. -/
def size : Plan → Nat
  | times p _ _ _ => p.size + 1
  | remember p => p.size + 1
  | seq p q => p.size + q.size + 1
  | alt p q => p.size + q.size + 1
  | _ => 1

/-- A choice between plans, or the plan itself where there is only one. No more beginnings can be taken out than there are parts. -/
def chooseAll : List Plan → Plan
  | [p] => p
  | ps => choose ((ps.map size).foldl (· + ·) 0) ps

/-! ## Repetitions -/

/-- A repetition. No turn at all matches the empty text, and exactly one turn is no repetition. -/
def repeated (p : Plan) (least : Nat) (most? : Option Nat) (lazy : Bool) : Plan :=
  let (least, most?) := if p.matchesEmptyOnly then (min least 1, some (min (most?.getD 1) 1)) else (least, most?)
  match least, most? with
  | 0, some 0 => empty
  | 1, some 1 => p
  | least, most? => times p least most? lazy

/-! ## Plans of patterns -/

/-- The plans of the branches that a pattern consists of. -/
def branchesOf : Pattern → List Plan
  | .empty => [empty]
  | .set s => [ofSet s]
  | .assert a => [assert a]
  | .seq p q => [joinParts [(chooseAll (branchesOf p)).parts, (chooseAll (branchesOf q)).parts]]
  | .alt p q => chooseAll (branchesOf p) :: branchesOf q
  | .times p least most? lazy => [repeated (chooseAll (branchesOf p)) least most? lazy]
  | .group remembered p => [if remembered then remember (chooseAll (branchesOf p)) else chooseAll (branchesOf p)]

/-- The plan of a pattern. -/
def ofPattern (p : Pattern) : Plan := chooseAll (branchesOf p)

end Plan

end FirstMatch
