import FirstMatch.Pattern.Brackets
import FirstMatch.Pattern.Cost

/-!
# Reading patterns

A pattern text is read from the left, with the groups that are still open on a stack. Flags hold to the end of the group in which
they are set, over all of its branches. A repetition takes the item before it, which must not be missing and must not be a
setting of flags.
-/

namespace FirstMatch.Pattern

/-- What flags decide. -/
structure Flags where
  ignoreCase : Bool := false
  /-- The line anchors hold at every line, not only at the ends of the text. -/
  multiLine : Bool := false
  /-- The dot stands for a line feed as well. -/
  dotAll : Bool := false
  /-- Repetitions prefer few turns, and many where they are marked. -/
  swapGreed : Bool := false
  deriving DecidableEq, Repr

/-- A flag is set or cleared by its letter. The letter for full character classes changes nothing here, but it may not be
cleared. -/
def Flags.set? (f : Flags) (letter : Char) (on : Bool) : Option Flags :=
  match letter with
  | 'i' => some { f with ignoreCase := on }
  | 'm' => some { f with multiLine := on }
  | 's' => some { f with dotAll := on }
  | 'U' => some { f with swapGreed := on }
  | 'u' => if on then some f else none
  | _ => none

/-! ## Groups -/

/-- What has been read as one: a pattern, how deep compound patterns are nested in it, and whether it may be repeated. -/
structure Item where
  pattern : Pattern
  depth : Nat := 0
  repeatable : Bool := true

/-- A group that is open: its finished branches and the items of the branch at hand, the last of each first. -/
structure Group where
  branches : List Item := []
  items : List Item := []

namespace Group

/-- The branch at hand. -/
def branch (g : Group) : Item :=
  { pattern := g.items.foldl (fun rest item => .seq item.pattern rest) .empty, depth := depthOf (g.items.map Item.depth) }

/-- The pattern of the group. -/
def close (g : Group) : Item :=
  let last := g.branch
  { pattern := g.branches.foldl (fun rest b => .alt b.pattern rest) last.pattern
    depth := depthOf ((last :: g.branches).map Item.depth) }

/-- One more item stands in the branch at hand. -/
def push (g : Group) (item : Item) : Group := { g with items := item :: g.items }

/-- The branch at hand ends and another begins. -/
def split (g : Group) : Group := ⟨g.branch :: g.branches, []⟩

/-- The last item is repeated. -/
def repeatLast? (g : Group) (least : Nat) (most? : Option Nat) (lazy : Bool) : Option Group :=
  match g.items with
  | item :: rest =>
    if item.repeatable then
      some { g with items := { pattern := .times item.pattern least most? lazy, depth := item.depth + 1 } :: rest }
    else none
  | [] => none

end Group

/-- What stands after an opening parenthesis. -/
inductive GroupHead where
  /-- The flags for the rest of the enclosing group. -/
  | settings (f : Flags)
  /-- A group with flags of its own, which may be remembered, and the group names known in it. -/
  | opened (f : Flags) (remembered : Bool) (names : List (List Char))

/-- Flags to the colon or the parenthesis that ends them: the flags, whether a colon ends them, and what follows. A letter or the
sign of clearing may not be repeated, and the sign may not stand last. -/
def takeFlags? (f : Flags) (seen : List Char) (on : Bool) : List Char → Option (Flags × Bool × List Char)
  | [] => none
  | ':' :: r => if seen.head? = some '-' then none else some (f, true, r)
  | ')' :: r => if seen.isEmpty || seen.head? = some '-' then none else some (f, false, r)
  | '-' :: r => if '-' ∈ seen then none else takeFlags? f ('-' :: seen) false r
  | c :: r =>
    if c ∈ seen then none
    else match f.set? c on with
      | none => none
      | some f => takeFlags? f (c :: seen) on r

/-- Whether a character may stand in the name of a group, first or later: a letter or the low line, and later also a number, the
dot and square brackets. -/
def isNameChar (first : Bool) (c : Char) : Bool :=
  c == '_' || CharSet.knownLetter.contains c ||
    (!first && (CharSet.knownNumber.contains c || c == '.' || c == '[' || c == ']'))

/-- A group name to the angle bracket that ends it. It must follow the rule for names and must not be taken. -/
def takeName? (names : List (List Char)) (t : List Char) : Option (List Char × List Char) :=
  match t.takeWhile (· != '>'), t.dropWhile (· != '>') with
  | c :: name, _ :: rest =>
    if isNameChar true c && name.all (isNameChar false) && !names.contains (c :: name) then some (c :: name, rest) else none
  | _, _ => none

/-- What stands after an opening parenthesis, and what follows it. Looking ahead or behind is not supported. -/
def takeGroupHead? (f : Flags) (names : List (List Char)) (t : List Char) : Option (GroupHead × List Char) :=
  match t with
  | '?' :: '=' :: _ => none
  | '?' :: '!' :: _ => none
  | '?' :: '<' :: '=' :: _ => none
  | '?' :: '<' :: '!' :: _ => none
  | '?' :: 'P' :: '<' :: r => (takeName? names r).map fun (name, rest) => (.opened f true (name :: names), rest)
  | '?' :: '<' :: r => (takeName? names r).map fun (name, rest) => (.opened f true (name :: names), rest)
  | '?' :: r =>
    (takeFlags? f [] true r).map fun (f, opens, rest) => (if opens then .opened f false names else .settings f, rest)
  | _ => some (.opened f true names, t)

/-! ## Repetitions -/

/-- Whether a repetition prefers few turns, and what follows the mark that says so. -/
def takeLazy (f : Flags) : List Char → Bool × List Char
  | '?' :: r => (!f.swapGreed, r)
  | t => (f.swapGreed, t)

/-- A number below 2³² with blanks around it. -/
def takeNumber? (t : List Char) : Option (Nat × List Char) :=
  let t := Text.trimStart t
  let digits := t.takeWhile Char.isDigit
  let n := Decimal.ofDigits digits
  if digits.isEmpty || UInt32.size ≤ n then none else some (n, Text.trimStart (t.dropWhile Char.isDigit))

/-- The least and the greatest number of turns, after an opening brace and to the closing one. -/
def takeTurns? (t : List Char) : Option (Nat × Option Nat × List Char) :=
  match takeNumber? t with
  | none => none
  | some (least, '}' :: r) => some (least, some least, r)
  | some (least, ',' :: '}' :: r) => some (least, none, r)
  | some (least, ',' :: r) =>
    match takeNumber? r with
    | some (most, '}' :: rest) => if least ≤ most then some (least, some most, rest) else none
    | _ => none
  | some _ => none

/-! ## Whole patterns -/

/-- The pattern of a character. -/
def ofChar (f : Flags) (c : Char) : Pattern := .set ((CharSet.single c).caselessIf f.ignoreCase)

/-- The pattern of an escape. -/
def ofEscaped (f : Flags) : Escaped → Pattern
  | .char c => ofChar f c
  | .set s => .set s
  | .assertion a => .assert a

/-- The pattern of a single sign or character outside of brackets. -/
def ofSign (f : Flags) (c : Char) : Pattern :=
  match c with
  | '.' => .set (if f.dotAll then .every else (CharSet.single '\n').complement)
  | '^' => .assert (if f.multiLine then .lineStart else .textStart)
  | '$' => .assert (if f.multiLine then .lineEnd else .textEnd)
  | c => ofChar f c

/-- A group that encloses the one at hand, with the flags that hold in it again after that, and whether the one at hand is
remembered. -/
structure Enclosing where
  group : Group
  flags : Flags
  remembered : Bool

/-- The enclosing group after the one at hand has been closed. -/
def Enclosing.resume (e : Enclosing) (g : Group) : Group :=
  let inner := g.close
  e.group.push { pattern := .group e.remembered inner.pattern, depth := inner.depth + 1 }

/-- The pattern of a text. `outer` holds the groups that are open around the one at hand, the innermost first. -/
def readFrom? : Nat → List (List Char) → List Enclosing → Group → Flags → List Char → Option Item
  | 0, _, _, _, _, _ => none
  | fuel + 1, names, outer, g, f, t =>
    match t with
    | [] => if outer.isEmpty then some g.close else none
    | '(' :: r =>
      match takeGroupHead? f names r with
      | none => none
      | some (.settings f, rest) => readFrom? fuel names outer (g.push { pattern := .empty, repeatable := false }) f rest
      | some (.opened inner remembered names, rest) => readFrom? fuel names (⟨g, f, remembered⟩ :: outer) {} inner rest
    | ')' :: r =>
      match outer with
      | [] => none
      | e :: others => readFrom? fuel names others (e.resume g) e.flags r
    | '|' :: r => readFrom? fuel names outer g.split f r
    | '[' :: r =>
      (takeSet? f.ignoreCase r).bind fun (s, rest) =>
        readFrom? fuel names outer (g.push { pattern := .set s.set, depth := s.depth }) f rest
    | '?' :: r =>
      let (lazy, rest) := takeLazy f r
      (g.repeatLast? 0 (some 1) lazy).bind fun g => readFrom? fuel names outer g f rest
    | '*' :: r =>
      let (lazy, rest) := takeLazy f r
      (g.repeatLast? 0 none lazy).bind fun g => readFrom? fuel names outer g f rest
    | '+' :: r =>
      let (lazy, rest) := takeLazy f r
      (g.repeatLast? 1 none lazy).bind fun g => readFrom? fuel names outer g f rest
    | '{' :: r =>
      (takeTurns? r).bind fun (least, most?, rest) =>
        let (lazy, rest) := takeLazy f rest
        (g.repeatLast? least most? lazy).bind fun g => readFrom? fuel names outer g f rest
    | '\\' :: r =>
      (takeEscape? r).bind fun (e, rest) => readFrom? fuel names outer (g.push { pattern := ofEscaped f e }) f rest
    | c :: r => readFrom? fuel names outer (g.push { pattern := ofSign f c }) f r

/-- The greatest depth to which groups, repetitions, rows, choices and brackets may be nested. -/
def depthLimit : Nat := 250

/-- The pattern a whole text writes. -/
def read? (text : String) : Option Pattern :=
  (readFrom? (text.toList.length + 1) [] [] {} {} text.toList).bind fun item =>
    if item.depth ≤ depthLimit && (Plan.ofPattern item.pattern).isAffordable then some item.pattern else none

end FirstMatch.Pattern
