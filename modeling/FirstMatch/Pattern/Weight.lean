import FirstMatch.Pattern.Construction
import FirstMatch.Pattern.Plan
import Std.Data.HashSet

/-!
# The weight of a plan

The automaton of a plan reads bytes, and one is built for each direction of reading. A recipe says what is built and in which order.
A repetition is built as often as it has turns, literals to choose from share a tree, and a set of characters is one table if all of
them are ASCII.
-/

namespace FirstMatch

/-- The direction in which an automaton reads. Only the forward one remembers parts of the text. -/
inductive Direction where
  | forward | backward
  deriving DecidableEq, Repr

/-- What is built, in order. -/
inductive Recipe where
  | add (part : Construction)
  | readTree (tree : Text.ByteTree)
  | readRows (rows : List Text.ByteRow)
  | both (r s : Recipe)
  | again (n : Nat) (r : Recipe)

namespace Recipe

/-- The automaton after what is built. -/
def run : Recipe → Construction → Construction
  | add part, c => c.plus part
  | readTree tree, c => c.readTree tree
  | readRows rows, c => c.readRows rows
  | both r s, c => s.run (r.run c)
  | again n r, c => Construction.again r.run n c

/-- What is built by recipes one after another. -/
def all (rs : List Recipe) : Recipe := rs.foldr both (add {})

/-- States without a table. -/
def plain (n : Nat) : Recipe := add (.plain n)

/-- A fork in two. -/
def forkInTwo : Recipe := add (.fork 2)

/-! ## Sets -/

/-- A set of characters. -/
def ofSet (d : Direction) (s : CharSet) : Recipe :=
  if s.ranges.all (·.2 < 128) then both (plain 1) (add (.table s.ranges.length))
  else
    match d with
    | .forward => readTree (.ofRows s.rows)
    | .backward => readRows s.rows

/-! ## Choices between literals -/

/-- The bytes of a literal, in the order in which they are read. -/
def bytesRead (d : Direction) (codes : List Nat) : List Nat :=
  let bytes := codes.flatMap Text.encode
  match d with
  | .forward => bytes
  | .backward => bytes.reverse

/-- The different elements of a list. -/
def distinct {α : Type} [BEq α] [Hashable α] (xs : List α) : List α := (Std.HashSet.ofList xs).toList

/-- Words in stretches, the last first and the words of each in turn reversed. A word that is complete ends a stretch, but nothing
ends where no stretch has a word yet except one. -/
def stretchesBack (words : List (List Nat)) : List (List (List Nat)) :=
  words.foldl (fun parts w =>
    match parts with
    | [] => []
    | part :: ended =>
      if !w.isEmpty then (w :: part) :: ended
      else if parts.all List.isEmpty && !ended.isEmpty then parts
      else [] :: parts) [[]]

/-- Words in stretches, in the order of preference. -/
def stretches (words : List (List Nat)) : List (List (List Nat)) := ((stretchesBack words).map List.reverse).reverse

/-- The tree of some words of at most `n` bytes that are not all complete. In each stretch a state tells the next bytes apart, and a
fork tries the stretches and the end of the words between them in turn. -/
def wordTree : Nat → List (List Nat) → Construction
  | 0, _ => {}
  | n + 1, words =>
    let parts := stretches words
    let used := parts.filter (!·.isEmpty)
    let partTree (part : List (List Nat)) : Construction :=
      let firsts := distinct (part.filterMap List.head?)
      let state := if firsts.length = 1 then .plain 1 else .table firsts.length
      (firsts.map fun b =>
        let rest := (part.filter (·.head? = some b)).map List.tail
        if rest.all List.isEmpty then {} else wordTree n rest).foldl .plus state
    (used.map partTree).foldl .plus (.fork (used.length + (parts.length - 1)))

/-! ## Plans -/

/-- A choice, from the recipes of its branches. Where all branches are literals, those that begin alike share states. -/
def ofChoice (d : Direction) (p : Plan) (branches : List Recipe) : Recipe :=
  match branches, p.literals? with
  | [r], _ => r
  | _, some words =>
    let words := words.map (bytesRead d)
    both (plain 1) (add (wordTree ((words.map List.length).foldl max 0) words))
  | r :: s :: rs, none => all (r :: s :: add (.fork branches.length) :: plain 1 :: rs)
  | [], none => all []

/-- A repetition of what `r` builds, and whose matches are never empty if `solid`. -/
def ofTimes (solid : Bool) (r : Recipe) (least : Nat) (most? : Option Nat) : Recipe :=
  match least, most? with
  | 0, some 1 => all [forkInTwo, r, plain 1]
  | 0, none => if solid then both forkInTwo r else all [r, forkInTwo, forkInTwo, plain 1]
  | least, none => both (again least r) forkInTwo
  | least, some most =>
    if least = most then again least r
    else all [if least = 0 then plain 1 else again least r, plain 1, again (most - least) (both forkInTwo r)]

/-- The recipes of the branches of a plan. -/
def branchesOf (d : Direction) : Plan → List Recipe
  | .empty => [plain 1]
  | .literal codes => [plain (bytesRead d codes).length]
  | .choice s => [ofSet d s]
  | .assert _ => [plain 1]
  | .times p least most? _ => [ofTimes (p.least?.any (0 < ·)) (ofChoice d p (branchesOf d p)) least most?]
  | .remember p =>
    let r := ofChoice d p (branchesOf d p)
    [match d with
      | .forward => all [plain 1, r, plain 1]
      | .backward => r]
  | .seq p q =>
    let r := ofChoice d p (branchesOf d p)
    let s := ofChoice d q (branchesOf d q)
    [match d with
      | .forward => both r s
      | .backward => both s r]
  | .alt p q => ofChoice d p (branchesOf d p) :: branchesOf d q

/-- The automaton of a plan. It begins with a loop over any bytes, unless a match can only begin where reading does, it ends with a
state that reports the match, and forward it remembers the whole match. -/
def ofPlan (d : Direction) (p : Plan) : Recipe :=
  let loop := all [forkInTwo, plain 1, add (.table 1)]
  let r := ofChoice d p (branchesOf d p)
  match d with
  | .forward => all [if p.holdsStart then plain 1 else loop, plain 1, r, plain 1, plain 1]
  | .backward => all [if p.holdsEnd then plain 1 else loop, r, plain 1]

end Recipe

namespace Plan

/-- The automaton of a plan, as far as it is not too heavy. -/
def automaton (d : Direction) (p : Plan) : Construction := (Recipe.ofPlan d p).run {}

/-- Whether the automata for both directions are light enough. -/
def isLight (p : Plan) : Bool := !(p.automaton .forward).isHeavy && !(p.automaton .backward).isHeavy

end Plan

end FirstMatch
