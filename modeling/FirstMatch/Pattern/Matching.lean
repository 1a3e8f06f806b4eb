import FirstMatch.Pattern.Syntax

/-!
# Matching

A pattern is matched from every place of a text at once. A set of places is a natural number whose bit `i` says whether place `i`
is in it, place `i` being the one before character `i`; a pattern takes the places where a match may begin to the places where
one may end. What its sets and assertions say of a text is found out once, before any walk. A text matches if some place is
reached.
-/

namespace FirstMatch

/-- A text to be matched. -/
structure Subject where
  chars : Array Char

namespace Subject

/-- The numbers below `count` with a property, as a set. -/
def setOf (count : Nat) (p : Nat → Bool) : Nat :=
  (List.range count).foldl (fun places i => if p i then places ||| 1 <<< i else places) 0

/-- The places before the characters of a set. -/
def placesBefore (s : Subject) (cs : CharSet) : Nat := setOf s.chars.size fun i => (s.chars[i]?).any cs.contains

/-- The character before a place. -/
def before? (s : Subject) (i : Nat) : Option Char := if i = 0 then none else s.chars[i - 1]?

/-- The places where an assertion holds. -/
def placesWhere (s : Subject) (a : Assertion) : Nat :=
  setOf (s.chars.size + 1) fun i => a.holds (s.before? i) s.chars[i]?

/-- Every place of the text. -/
def allPlaces (s : Subject) : Nat := setOf (s.chars.size + 1) fun _ => true

end Subject

namespace Pattern

/-- What `n` turns reach. Once a turn changes nothing, no later one does. -/
def turns (step : Nat → Nat) : Nat → Nat → Nat
  | 0, places => places
  | n + 1, places =>
    let next := step places
    if next = places then places else turns step n next

/-- What at most `n` turns reach, and what one turn more reaches from there. `fresh` are the places reached last, from which alone
the next turn is taken, and `after` is what a turn reaches from the other places that have been seen. Where `n` turns do not
exhaust what can be reached, `after` lacks the last of them. -/
def spread (step : Nat → Nat) : Nat → Nat → Nat → Nat → Nat × Nat
  | 0, seen, _, after => (seen, after)
  | n + 1, seen, fresh, after =>
    let reached := step fresh
    let next := (reached ||| seen) ^^^ seen
    if next = 0 then (seen, after ||| reached) else spread step n (seen ||| next) next (after ||| reached)

/-- A pattern over one text: its sets and assertions are the places at which they hold. -/
inductive Walk where
  | stay
  /-- A step over the character after one of some places. -/
  | step (places : Nat)
  | check (places : Nat)
  | seq (w v : Walk)
  | alt (w v : Walk)
  | times (w : Walk) (least : Nat) (most? : Option Nat)

/-- The pattern over a text. -/
def walk (s : Subject) : Pattern → Walk
  | empty => .stay
  | set cs => .step (s.placesBefore cs)
  | assert a => .check (s.placesWhere a)
  | seq p q => .seq (p.walk s) (q.walk s)
  | alt p q => .alt (p.walk s) (q.walk s)
  | times p least most? _ => .times (p.walk s) least most?
  | group _ p => p.walk s

/-- The places where a match may end that begins at one of some places of a text with `size` characters. Without a greatest number
of turns, one more than the text has characters reaches all that can be reached, and the last turn is taken from all of it. -/
def Walk.reach (size : Nat) : Walk → Nat → Nat
  | stay, places => places
  | step there, places => (places &&& there) <<< 1
  | check there, places => places &&& there
  | seq w v, places => v.reach size (w.reach size places)
  | alt w v, places => w.reach size places ||| v.reach size places
  | times w least (some most), places =>
    let first := turns (w.reach size) least places
    (spread (w.reach size) (most - least) first first 0).1
  | times w 0 none, places => (spread (w.reach size) (size + 1) places places 0).1
  | times w (least + 1) none, places =>
    let first := turns (w.reach size) least places
    (spread (w.reach size) (size + 1) first first 0).2

/-- Whether the pattern matches somewhere in a text. -/
def occursIn (p : Pattern) (text : String) : Bool :=
  let s : Subject := ⟨text.toList.toArray⟩
  (p.walk s).reach s.chars.size s.allPlaces != 0

end Pattern

end FirstMatch
