import FirstMatch.Pattern.Escape
import FirstMatch.Text.Folding

/-!
# Sets in brackets

Brackets hold characters, ranges, escapes, named classes and further brackets, all united; `&&`, `--` and `~~` combine what stands
on their two sides, from the left. A caret first negates the set, and a closing bracket or dashes that stand first are
characters. Where letter case is ignored, it is so before a set is negated.
-/

namespace FirstMatch.Pattern

/-- A sign that combines two sets. -/
inductive SetOperator where
  | inter | diff | symmDiff
  deriving DecidableEq, Repr

/-- The set that a sign makes of two. -/
def SetOperator.apply (op : SetOperator) (s t : CharSet) : CharSet :=
  match op with
  | inter => s.inter t
  | diff => s.diff t
  | symmDiff => s.symmDiff t

/-- The depth of parts side by side: one more than the deepest, unless there is only one. -/
def depthOf : List Nat → Nat
  | [] => 0
  | [n] => n
  | ns => ns.foldl max 0 + 1

/-- A set that has been read and how deep brackets and signs are nested in it. -/
structure ReadSet where
  set : CharSet
  depth : Nat := 0

/-- Brackets that are open: what stands before the last sign, what has been united since, and the depths of its parts. -/
structure Bracket where
  negated : Bool
  left? : Option (ReadSet × SetOperator)
  united : CharSet
  depths : List Nat

namespace Bracket

/-- One more set is united. -/
def add (b : Bracket) (s : ReadSet) : Bracket := { b with united := b.united.union s.set, depths := s.depth :: b.depths }

/-- The sets on both sides of the last sign, combined. -/
def combined (ignoreCase : Bool) (b : Bracket) : ReadSet :=
  match b.left? with
  | none => ⟨b.united, depthOf b.depths⟩
  | some (left, op) =>
    ⟨op.apply (left.set.caselessIf ignoreCase) (b.united.caselessIf ignoreCase), max left.depth (depthOf b.depths) + 1⟩

/-- A sign stands after what has been read. -/
def operate (ignoreCase : Bool) (op : SetOperator) (b : Bracket) : Bracket :=
  { b with left? := some (b.combined ignoreCase, op), united := .none, depths := [] }

/-- The set of brackets that close. -/
def close (ignoreCase : Bool) (b : Bracket) : ReadSet :=
  let r := b.combined ignoreCase
  ⟨(r.set.caselessIf ignoreCase).complementIf b.negated, r.depth + 1⟩

end Bracket

/-- The classes with a name, all of ASCII characters. -/
def namedClasses : List (String × List (Char × Char)) := [
  ("alnum", [('0', '9'), ('A', 'Z'), ('a', 'z')]),
  ("alpha", [('A', 'Z'), ('a', 'z')]),
  ("ascii", [('\x00', '\x7F')]),
  ("blank", [('\t', '\t'), (' ', ' ')]),
  ("cntrl", [('\x00', '\x1F'), ('\x7F', '\x7F')]),
  ("digit", [('0', '9')]),
  ("graph", [('!', '~')]),
  ("lower", [('a', 'z')]),
  ("print", [(' ', '~')]),
  ("punct", [('!', '/'), (':', '@'), ('[', '\x60'), ('\x7B', '~')]),
  ("space", [('\t', '\r'), (' ', ' ')]),
  ("upper", [('A', 'Z')]),
  ("word", [('0', '9'), ('A', 'Z'), ('_', '_'), ('a', 'z')]),
  ("xdigit", [('0', '9'), ('A', 'F'), ('a', 'f')])]

/-- The set of a named class. -/
def classNamed? (name : String) : Option CharSet :=
  (namedClasses.find? (·.1 == name)).map fun (_, rs) =>
    .ofRanges (rs.map fun (first, last) => (first.toNat, last.toNat))

/-- A named class, written `[:name:]` or, for the characters not in it, `[:^name:]`; the first bracket is passed already. -/
def takeNamedClass? (ignoreCase : Bool) : List Char → Option (CharSet × List Char)
  | ':' :: r =>
    let (negated, r) := match r with
      | '^' :: r => (true, r)
      | r => (false, r)
    match r.dropWhile (· != ':') with
    | ':' :: ']' :: rest =>
      (classNamed? (String.ofList (r.takeWhile (· != ':')))).map fun s =>
        ((s.caselessIf ignoreCase).complementIf negated, rest)
    | _ => none
  | _ => none

/-- The beginning of brackets, after the opening one. -/
def openBracket (t : List Char) : Bracket × List Char :=
  let (negated, t) := match t with
    | '^' :: r => (true, r)
    | t => (false, t)
  match t with
  | '-' :: _ =>
    (⟨negated, none, .single '-', (t.takeWhile (· == '-')).map fun _ => 0⟩, t.dropWhile (· == '-'))
  | ']' :: r => (⟨negated, none, .single ']', [0]⟩, r)
  | t => (⟨negated, none, .none, []⟩, t)

/-- A character or an escape. -/
def takePrimitive? : List Char → Option (Escaped × List Char)
  | [] => none
  | '\\' :: r => takeEscape? r
  | c :: r => some (.char c, r)

/-- The set of a character or a set; an assertion has no place in brackets. -/
def Escaped.toSet? : Escaped → Option CharSet
  | char c => some (.single c)
  | set s => some s
  | assertion _ => none

/-- Whether a dash stands first that makes a range. A dash before a closing bracket is a character, and two dashes are a sign. -/
def rangeFollows : List Char → Bool
  | '-' :: ']' :: _ => false
  | '-' :: '-' :: _ => false
  | '-' :: _ => true
  | _ => false

/-- A range, or a character or escape alone, and what follows it. -/
def takeItem? (t : List Char) : Option (CharSet × List Char) :=
  match takePrimitive? t with
  | none => none
  | some (first, r) =>
    if rangeFollows r then
      match first, takePrimitive? (r.drop 1) with
      | .char a, some (.char b, rest) => if a.toNat ≤ b.toNat then some (.range a b, rest) else none
      | _, _ => none
    else first.toSet?.map (·, r)

/-- The set of the brackets that are open, the innermost `current`, and what follows the last closing bracket. -/
def takeBrackets? (ignoreCase : Bool) : Nat → List Bracket → Bracket → List Char → Option (ReadSet × List Char)
  | 0, _, _, _ => none
  | fuel + 1, outer, current, t =>
    match t with
    | '[' :: r =>
      match takeNamedClass? ignoreCase r with
      | some (s, rest) => takeBrackets? ignoreCase fuel outer (current.add ⟨s, 0⟩) rest
      | none =>
        let (inner, rest) := openBracket r
        takeBrackets? ignoreCase fuel (current :: outer) inner rest
    | ']' :: r =>
      match outer with
      | [] => some (current.close ignoreCase, r)
      | enclosing :: others => takeBrackets? ignoreCase fuel others (enclosing.add (current.close ignoreCase)) r
    | '&' :: '&' :: r => takeBrackets? ignoreCase fuel outer (current.operate ignoreCase .inter) r
    | '-' :: '-' :: r => takeBrackets? ignoreCase fuel outer (current.operate ignoreCase .diff) r
    | '~' :: '~' :: r => takeBrackets? ignoreCase fuel outer (current.operate ignoreCase .symmDiff) r
    | t =>
      match takeItem? t with
      | none => none
      | some (s, rest) => takeBrackets? ignoreCase fuel outer (current.add ⟨s, 0⟩) rest

/-- The set that stands after an opening bracket, and what follows its closing bracket. -/
def takeSet? (ignoreCase : Bool) (t : List Char) : Option (ReadSet × List Char) :=
  let (bracket, rest) := openBracket t
  takeBrackets? ignoreCase (t.length + 1) [] bracket rest

end FirstMatch.Pattern
