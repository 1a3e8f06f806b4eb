import FirstMatch.Decimal.Numeral
import FirstMatch.Pattern.Syntax
import FirstMatch.Text.Blank

/-!
# Escapes in patterns

After a backslash a punctuation mark stands for itself and a letter for a control character, a character by its code, a set or an
assertion. Letters and digits without such a meaning may not be escaped.
-/

namespace FirstMatch.Pattern

/-- What an escape stands for. -/
inductive Escaped where
  | char (c : Char)
  | set (s : CharSet)
  | assertion (a : Assertion)
  deriving DecidableEq, Repr

/-- The value of a hexadecimal digit. -/
def hexValue? (c : Char) : Option Nat :=
  if c.isDigit then some (c.toNat - '0'.toNat)
  else if 'a' ≤ c ∧ c ≤ 'f' then some (c.toNat - 'a'.toNat + 10)
  else if 'A' ≤ c ∧ c ≤ 'F' then some (c.toNat - 'A'.toNat + 10)
  else none

/-- The number written by hexadecimal digits. -/
def ofHex? (digits : List Char) : Option Nat :=
  digits.foldlM (fun n c => (hexValue? c).map (16 * n + ·)) 0

/-- The character of a code, if the code has one. -/
def charOfCode? (n : Nat) : Option Char := if n.isValidChar then some (Char.ofNat n) else none

/-- A character by its code: `count` hexadecimal digits, or any positive number of them in braces. -/
def takeCode? (count : Nat) (t : List Char) : Option (Char × List Char) :=
  match t with
  | '{' :: r =>
    let digits := r.takeWhile (· != '}')
    match r.dropWhile (· != '}') with
    | _ :: rest =>
      if digits.isEmpty then none else (ofHex? digits).bind fun n => (charOfCode? n).map (·, rest)
    | [] => none
  | _ =>
    if t.length < count then none
    else (ofHex? (t.take count)).bind fun n => (charOfCode? n).map (·, t.drop count)

/-- Whether a character may stand in the name of a word assertion. -/
def isAssertionName (c : Char) : Bool := ('a' ≤ c && c ≤ 'z') || ('A' ≤ c && c ≤ 'Z') || c == '-'

/-- The word assertion with a name. -/
def assertionNamed? (name : List Char) : Option Assertion :=
  if name = "start".toList then some .wordStart
  else if name = "end".toList then some .wordEnd
  else if name = "start-half".toList then some .wordStartHalf
  else if name = "end-half".toList then some .wordEndHalf
  else none

/-- The assertion of a word boundary, which a name in braces may narrow. Braces with anything but a name belong to what
follows. -/
def takeBoundary? (t : List Char) : Option (Assertion × List Char) :=
  match t with
  | ['{'] => none
  | '{' :: c :: r =>
    if isAssertionName c then
      match (c :: r).dropWhile isAssertionName with
      | '}' :: rest => (assertionNamed? ((c :: r).takeWhile isAssertionName)).map (·, rest)
      | _ => none
    else some (.wordBoundary, t)
  | _ => some (.wordBoundary, t)

/-- Whether a punctuation mark or another ASCII character without a meaning of its own may be escaped. -/
def standsForItself (c : Char) : Bool := c.toNat < 128 && !c.isAlphanum && c != '<' && c != '>'

/-- What the escape after a backslash stands for, and what follows it. -/
def takeEscape? : List Char → Option (Escaped × List Char)
  | [] => none
  | c :: r =>
    match c with
    | 'x' => (takeCode? 2 r).map fun (c, rest) => (.char c, rest)
    | 'u' => (takeCode? 4 r).map fun (c, rest) => (.char c, rest)
    | 'U' => (takeCode? 8 r).map fun (c, rest) => (.char c, rest)
    | 'd' => some (.set .digit, r)
    | 'D' => some (.set CharSet.digit.complement, r)
    | 's' => some (.set Text.blanks, r)
    | 'S' => some (.set Text.blanks.complement, r)
    | 'w' => some (.set .word, r)
    | 'W' => some (.set CharSet.word.complement, r)
    | 'a' => some (.char '\x07', r)
    | 'f' => some (.char '\x0C', r)
    | 't' => some (.char '\t', r)
    | 'n' => some (.char '\n', r)
    | 'r' => some (.char '\r', r)
    | 'v' => some (.char '\x0B', r)
    | 'A' => some (.assertion .textStart, r)
    | 'z' => some (.assertion .textEnd, r)
    | 'b' => (takeBoundary? r).map fun (a, rest) => (.assertion a, rest)
    | 'B' => some (.assertion .notWordBoundary, r)
    | '<' => some (.assertion .wordStart, r)
    | '>' => some (.assertion .wordEnd, r)
    | _ => if standsForItself c then some (.char c, r) else none

end FirstMatch.Pattern
