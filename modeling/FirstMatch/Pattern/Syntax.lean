import FirstMatch.Text.Word

/-!
# Patterns

A pattern describes the texts that match it: sets of characters one after another, assertions about a place in the text, choices
and repetitions. Whether a repetition prefers few or many turns is kept, although it does not matter to the existence of a match.
-/

namespace FirstMatch

/-- A condition on a place in a text, between two characters or at an end. -/
inductive Assertion where
  | textStart | textEnd | lineStart | lineEnd | wordBoundary | notWordBoundary
  | wordStart | wordEnd | wordStartHalf | wordEndHalf
  deriving DecidableEq, Repr

/-- Whether the condition holds between two characters, either of which may be missing. -/
def Assertion.holds (a : Assertion) (before after : Option Char) : Bool :=
  let wordBefore := before.any Text.isWord
  let wordAfter := after.any Text.isWord
  match a with
  | textStart => before.isNone
  | textEnd => after.isNone
  | lineStart => before.all (· == '\n')
  | lineEnd => after.all (· == '\n')
  | wordBoundary => wordBefore != wordAfter
  | notWordBoundary => wordBefore == wordAfter
  | wordStart => !wordBefore && wordAfter
  | wordEnd => wordBefore && !wordAfter
  | wordStartHalf => !wordBefore
  | wordEndHalf => !wordAfter

/-- A pattern of texts. -/
inductive Pattern where
  | empty
  | set (s : CharSet)
  | assert (a : Assertion)
  | seq (p q : Pattern)
  | alt (p q : Pattern)
  /-- At least `least` turns, and at most `most?` where a greatest number is given; few of them are preferred if `lazy`. -/
  | times (p : Pattern) (least : Nat) (most? : Option Nat) (lazy : Bool)
  /-- A pattern in parentheses, which may ask that the text it matches be remembered. -/
  | group (remembered : Bool) (p : Pattern)
  deriving DecidableEq, Repr

end FirstMatch
