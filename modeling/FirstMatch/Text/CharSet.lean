/-!
# Sets of characters

A set of characters is kept as the code points, ascending, at which membership changes: the first begins the set, the next is the
first code point after it that is no longer in it, and so on by turns. Two sets are combined in one pass over the changes of
both. Surrogate code points are no characters: a range may reach across all of them, but it begins and ends with a character.
-/

namespace FirstMatch

/-- A set of characters, by the code points at which membership changes. -/
structure CharSet where
  changes : List Nat
  deriving DecidableEq, Repr

namespace CharSet

instance : Inhabited CharSet := ⟨⟨[]⟩⟩

/-- Whether a code point is in a set whose changes are given, when what is below them all is `inside`. -/
def holdsFrom (inside : Bool) : List Nat → Nat → Bool
  | [], _ => inside
  | x :: r, n => if n < x then inside else holdsFrom (!inside) r n

/-- Whether a code point is in the set. -/
def holds (s : CharSet) (n : Nat) : Bool := holdsFrom false s.changes n

/-- Whether a character is in the set. -/
def contains (s : CharSet) (c : Char) : Bool := s.holds c.toNat

/-! ## Sets by their ranges -/

/-- The set without a character. -/
def none : CharSet := ⟨[]⟩

/-- The set of ascending ranges that do not touch, each with its first and its last code point. -/
def ofRanges (rs : List (Nat × Nat)) : CharSet := ⟨rs.flatMap fun (first, last) => [first, last + 1]⟩

/-- The characters from `first` to `last`. -/
def range (first last : Char) : CharSet := ofRanges [(first.toNat, last.toNat)]

/-- The set of one character. -/
def single (c : Char) : CharSet := range c c

/-- Every character. -/
def every : CharSet := ofRanges [(0, 0x10FFFF)]

/-- The ranges between changes. -/
def rangesOf : List Nat → List (Nat × Nat)
  | first :: next :: r => (first, next - 1) :: rangesOf r
  | _ => []

/-- The ranges of the set, ascending. -/
def ranges (s : CharSet) : List (Nat × Nat) := rangesOf s.changes

/-- The code point of a set that holds only one. -/
def only? (s : CharSet) : Option Nat :=
  match s.ranges with
  | [(first, last)] => if first = last then some first else Option.none
  | _ => Option.none

/-! ## Combinations -/

/-- Membership and the changes still to come, after the code point `x` has been reached. Where one range ends and the next begins,
there are two changes. -/
def passing (x : Nat) (inside : Bool) : List Nat → Bool × List Nat
  | y :: r => if y = x then passing x (!inside) r else (inside, y :: r)
  | [] => (inside, [])

/-- The code point of the next change in either of two lists. -/
def next? : List Nat → List Nat → Option Nat
  | x :: _, y :: _ => some (min x y)
  | x :: _, [] => some x
  | [], y :: _ => some y
  | [], [] => Option.none

/-- The changes of a combination of two sets: `p` and `q` say which of them holds what is below all of their changes. Each step
passes a change, so as many steps as both have changes are enough. -/
def merge (f : Bool → Bool → Bool) : Nat → Bool → Bool → List Nat → List Nat → List Nat
  | 0, _, _, _, _ => []
  | n + 1, p, q, r, s =>
    match next? r s with
    | Option.none => []
    | some x =>
      let (p', r) := passing x p r
      let (q', s) := passing x q s
      if f p q = f p' q' then merge f n p' q' r s else x :: merge f n p' q' r s

/-- The characters whose membership in two sets combines to membership. What is in neither is not in the combination. -/
def combine (f : Bool → Bool → Bool) (s t : CharSet) : CharSet :=
  ⟨merge f (s.changes.length + t.changes.length) false false s.changes t.changes⟩

/-- The characters in either set. -/
def union (s t : CharSet) : CharSet := combine (· || ·) s t

/-- The characters in both sets. -/
def inter (s t : CharSet) : CharSet := combine (· && ·) s t

/-- Whether a code point is a surrogate. -/
def isSurrogate (n : Nat) : Bool := 0xD800 ≤ n && n ≤ 0xDFFF

/-- The part of a range that begins and ends with a character. -/
def trimRange? (r : Nat × Nat) : Option (Nat × Nat) :=
  let first := if isSurrogate r.1 then 0xE000 else r.1
  let last := if isSurrogate r.2 then 0xD7FF else r.2
  if first ≤ last then some (first, last) else Option.none

/-- The code points in the first set and not in the second. -/
def without (s t : CharSet) : CharSet := combine (fun p q => p && !q) s t

/-- The characters in the first set and not in the second. -/
def diff (s t : CharSet) : CharSet := ofRanges ((s.without t).ranges.filterMap trimRange?)

/-- The characters in one set and not in the other. -/
def symmDiff (s t : CharSet) : CharSet := (s.union t).diff (s.inter t)

/-- The characters not in the set. Where one range of the set ends right before the surrogates and the next begins right after
them, the range between them takes those two ends. -/
def complement (s : CharSet) : CharSet :=
  ofRanges ((every.without s).ranges.filterMap fun r =>
    if r = (0xD800, 0xDFFF) then some (0xD7FF, 0xE000) else trimRange? r)

/-- The set, or what is not in it. -/
def complementIf (negate : Bool) (s : CharSet) : CharSet := if negate then complement s else s

/-- The changes of a set with one more code point, which is not above those it has. -/
def consCode (n : Nat) : List Nat → List Nat
  | x :: r => if x = n then x :: r else if x = n + 1 then n :: r else n :: (n + 1) :: x :: r
  | [] => [n, n + 1]

/-- The set of some code points, in any order. -/
def ofCodes (codes : List Nat) : CharSet := ⟨(codes.mergeSort (· ≤ ·)).foldr consCode []⟩

end CharSet

end FirstMatch
