import FirstMatch.Pattern.Plan
import FirstMatch.Text.Encoding

/-!
# How matches begin

The texts that the matches of a plan may begin with are listed in the order of preference, unless there are too many of them. A
beginning is whole if it is all of a match. The list is then cut down to what can be searched for quickly; if every beginning on it
is still whole, a search for them finds all matches, and no automaton is needed.
-/

namespace FirstMatch

/-- The bytes that a match may begin with, and whether they are all of it. -/
structure Beginning where
  bytes : List Nat
  whole : Bool
  deriving DecidableEq, Repr

namespace Beginning

/-- The empty beginning that is all of a match. -/
def nothing : Beginning := ⟨[], true⟩

/-- The beginning of a match that goes on. -/
def opened (b : Beginning) : Beginning := { b with whole := false }

/-- At most the first `n` bytes. -/
def cut (n : Nat) (b : Beginning) : Beginning := if b.bytes.length ≤ n then b else ⟨b.bytes.take n, false⟩

/-- A whole beginning followed by another. -/
def followedBy (b c : Beginning) : Beginning := ⟨b.bytes ++ c.bytes, c.whole⟩

/-- One more beginning before others. Of two alike that meet one is kept, which is whole if both are. -/
def consMerged (b : Beginning) : List Beginning → List Beginning
  | c :: r => if b.bytes = c.bytes then ⟨c.bytes, b.whole && c.whole⟩ :: r else b :: c :: r
  | [] => [b]

/-- Beginnings without repetitions side by side. -/
def merged (bs : List Beginning) : List Beginning := bs.foldr consMerged []

/-- The first `n` bytes of all beginnings. -/
def cutAll (n : Nat) (bs : List Beginning) : List Beginning := merged (bs.map (cut n))

end Beginning

/-- The beginnings of all matches, in the order of preference, unless there are too many of them. -/
abbrev Beginnings : Type := Option (List Beginning)

namespace Beginnings

/-- What the empty text begins with. -/
def nothing : Beginnings := some [.nothing]

/-- Whether no beginning can be followed by anything. -/
def areOpen (s : Beginnings) : Bool := s.all (·.all (!·.whole))

/-- The beginnings of matches that go on. -/
def opened (s : Beginnings) : Beginnings := s.map (·.map .opened)

/-- The most beginnings that are listed. -/
def countLimit : Nat := 250

/-- The most bytes of a beginning. -/
def lengthLimit : Nat := 100

/-- Beginnings followed by others. Where too many of them may follow, those listed so far are all that is known, unless one of them
is empty. -/
def followedBy (s t : Beginnings) : Beginnings :=
  match s, t.filter fun bs => s.all (·.length * bs.length ≤ countLimit) with
  | none, _ => none
  | some bs, some cs =>
    some ((Beginning.merged (bs.flatMap fun b => if b.whole then cs.map b.followedBy else [b])).map (.cut lengthLimit))
  | some bs, none => if bs.any (·.bytes.isEmpty) then none else some (bs.map .opened)

/-- Beginnings followed by others, as far as some of them can be followed. -/
def extend (s t : Beginnings) : Beginnings := if s.areOpen then s else s.followedBy t

/-- The beginnings of either kind. If they are too many, their first four bytes may do. -/
def union (s t : Beginnings) : Beginnings :=
  match s, t with
  | some bs, some cs =>
    if bs.length + cs.length ≤ countLimit then some (Beginning.merged (bs ++ cs))
    else
      let (bs, cs) := (Beginning.cutAll 4 bs, Beginning.cutAll 4 cs)
      if bs.length + cs.length ≤ countLimit then some (Beginning.merged (bs ++ cs)) else none
  | _, _ => none

/-! ## Beginnings of plans -/

/-- The most turns of a repetition that are followed, and the most characters of a set. -/
def turnLimit : Nat := 10

/-- The beginnings of a repetition. -/
def repeated (s : Beginnings) (least : Nat) (most? : Option Nat) (lazy : Bool) : Beginnings :=
  if least = 0 then
    let s := if most? = some 1 then s else s.opened
    if lazy then nothing.union s else s.union nothing
  else
    let turns := (List.replicate (min least turnLimit) s).foldl extend nothing
    if most? = some least ∧ least ≤ turnLimit then turns else turns.opened

/-- Each character of a set, unless there are too many. -/
def ofSet (s : CharSet) : Beginnings :=
  if s.ranges.foldl (fun n (first, last) => n + (last + 1 - first)) 0 ≤ turnLimit then
    some (s.ranges.flatMap fun (first, last) =>
      (List.range (last + 1 - first)).map fun i => ⟨Text.encode (first + i), true⟩)
  else none

/-- The beginnings of parts in a row. -/
def ofRow (parts : List Beginnings) : Beginnings := parts.foldl extend nothing

/-- The beginnings of a choice between rows. -/
def ofRows : List (List Beginnings) → Beginnings
  | [parts] => ofRow parts
  | rows => (rows.map ofRow).foldl union (some [])

/-- Rows to choose from as parts of one row. -/
def partsOf : List (List Beginnings) → List Beginnings
  | [parts] => parts
  | rows => [ofRows rows]

/-- The beginnings of the parts of a plan, branch by branch. -/
def rowsOf : Plan → List (List Beginnings)
  | .empty => [[nothing]]
  | .literal codes => [[some [Beginning.cut lengthLimit ⟨codes.flatMap Text.encode, true⟩]]]
  | .choice s => [[ofSet s]]
  | .assert _ => [[nothing]]
  | .times p least most? lazy => [[repeated (ofRows (rowsOf p)) least most? lazy]]
  | .remember p => [[ofRows (rowsOf p)]]
  | .seq p q => [ofRows (rowsOf p) :: partsOf (rowsOf q)]
  | .alt p q => partsOf (rowsOf p) :: rowsOf q

/-- The beginnings of the matches of a plan. -/
def ofPlan (p : Plan) : Beginnings := ofRows (rowsOf p)

end Beginnings

/-! ## Searching for beginnings -/

namespace Beginning

/-- The beginnings that none before them is a beginning of. -/
def unforestalled (bs : List Beginning) : List Beginning :=
  (bs.foldl (fun kept b => if kept.any (·.bytes.isPrefixOf b.bytes) then kept else b :: kept) []).reverse

/-- The bytes that two lists begin with. -/
def sharedBytes : List Nat → List Nat → List Nat
  | a :: r, b :: s => if a = b then a :: sharedBytes r s else []
  | _, _ => []

/-- The bytes that all beginnings share. -/
def commonBytes : List Beginning → List Nat
  | b :: r => r.foldl (fun bytes c => sharedBytes bytes c.bytes) b.bytes
  | [] => []

/-- The ASCII characters that are frequent in texts. -/
def frequent : String := "\n\r (),-./0129:_abcdefghilmnoprstuvxy|"

/-- Whether a byte is rare in texts. -/
def isRare (byte : Nat) : Bool := byte < 128 && !frequent.toList.any (·.toNat == byte)

/-- Beginnings cut to fewer bytes, step by step. A step has the number of bytes to keep and the number of beginnings that are few
enough for it and all later ones. -/
def shorten : List (Nat × Nat) → List Beginning → List Beginning
  | [], bs => bs
  | (size, count) :: steps, bs => if bs.length ≤ count then bs else shorten steps (unforestalled (bs.map (cut size)))

/-- The beginnings that a search would look for. A rare first byte that all share is enough, and so are two bytes or more that all
share, if they are not a few whole matches, or five. Many beginnings are shortened, unless they are whole and get too short, or stay
too many. -/
def searched (bs : List Beginning) : List Beginning :=
  let found := unforestalled bs
  let common := commonBytes found
  if 1 < bs.length ∧ common.length ≤ 3 ∧ common.head?.any isRare then cutAll 1 found
  else
    let fast := found.all (·.whole) ∧ found.length ≤ 16
    let kept := if 4 < common.length ∨ (1 < common.length ∧ ¬ fast) then cutAll common.length found else found
    let short := shorten [(5, 10), (4, 10), (3, 64), (2, 64), (1, 10)] kept
    if kept.all (·.whole) ∧ (short.any (·.bytes.length ≤ 2) ∨ 64 < short.length) then kept else short

end Beginning

/-- Whether all matches can be found by a search for their beginnings: each of the beginnings that are searched for is a whole match
of one byte at least, nothing is remembered, and no place in the text is asked about. -/
def Plan.isSearchable (p : Plan) : Bool :=
  !p.remembers && !p.asserts &&
    match Beginnings.ofPlan p with
    | some bs => !bs.isEmpty && bs.all (!·.bytes.isEmpty) && (Beginning.searched bs).all (·.whole)
    | none => false

end FirstMatch
