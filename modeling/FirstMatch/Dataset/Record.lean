import FirstMatch.Error
import FirstMatch.Text.Blank

/-!
# Delimited records

A table text is a sequence of records, each a sequence of fields with a delimiter between them and a line feed at its end. A
field that begins with a quote runs to the closing quote and may hold delimiters, line feeds and quotes, each of these written
twice; what stands between the closing quote and the next delimiter is kept after it. Carriage returns at the end of a field's
unquoted part are dropped. Records of one blank field are passed over.
-/

namespace FirstMatch.Record

/-- What a quoted field holds, and what follows its closing quote; nothing if the text ends before one. -/
def takeQuoted : List Char → Option (List Char × List Char)
  | [] => none
  | '"' :: '"' :: r => (takeQuoted r).map fun (field, rest) => ('"' :: field, rest)
  | c :: r => if c = '"' then some ([], r) else (takeQuoted r).map fun (field, rest) => (c :: field, rest)

/-- Whether a character ends the unquoted part of a field. -/
def endsField (delimiter c : Char) : Bool := c == delimiter || c == '\n'

/-- The unquoted part of a field, without carriage returns at its end, and what follows. -/
def takePlain (delimiter : Char) (t : List Char) : List Char × List Char :=
  (Text.dropEndWhile (· == '\r') (t.takeWhile (!endsField delimiter ·)), t.dropWhile (!endsField delimiter ·))

/-- A field and what follows it; nothing if a quote is left open. -/
def takeField (delimiter : Char) : List Char → Option (List Char × List Char)
  | '"' :: r =>
    match takeQuoted r with
    | none => none
    | some (quoted, rest) =>
      let (plain, rest) := takePlain delimiter rest
      some (quoted ++ plain, rest)
  | t => some (takePlain delimiter t)

theorem length_le_of_takeQuoted {t field rest : List Char} (h : takeQuoted t = some (field, rest)) :
    rest.length < t.length := by
  fun_induction takeQuoted t generalizing field with
  | case1 => simp at h
  | case2 r ih =>
    obtain ⟨⟨f, u⟩, hu, he⟩ := Option.map_eq_some_iff.1 h
    cases he
    have := ih hu
    simp only [List.length_cons]
    omega
  | case3 c r => simp_all
  | case4 c r _ _ ih =>
    obtain ⟨⟨f, u⟩, hu, he⟩ := Option.map_eq_some_iff.1 h
    cases he
    have := ih hu
    simp only [List.length_cons]
    omega

theorem length_dropWhile_le (p : Char → Bool) (t : List Char) : (t.dropWhile p).length ≤ t.length :=
  (List.dropWhile_suffix p).length_le

/-- A field leaves no more text than it was read from. -/
theorem length_le_of_takeField {d : Char} {t field rest : List Char} (h : takeField d t = some (field, rest)) :
    rest.length ≤ t.length := by
  unfold takeField at h
  split at h
  · split at h
    · simp at h
    · next r quoted u hq =>
      simp only [takePlain, Option.some.injEq, Prod.mk.injEq] at h
      have h1 := length_le_of_takeQuoted hq
      have h2 := length_dropWhile_le (!endsField d ·) u
      rw [h.2] at h2
      simp only [List.length_cons]
      omega
  · simp only [takePlain, Option.some.injEq, Prod.mk.injEq] at h
    have h2 := length_dropWhile_le (!endsField d ·) t
    rwa [h.2] at h2

/-- The fields of a record and what follows the last of them; nothing if a quote is left open. -/
def takeFields (delimiter : Char) (t : List Char) : Option (List (List Char) × List Char) :=
  match _h : takeField delimiter t with
  | none => none
  | some (field, []) => some ([field], [])
  | some (field, c :: rest) =>
    if c = delimiter then (takeFields delimiter rest).map fun (fields, u) => (field :: fields, u)
    else some ([field], c :: rest)
termination_by t.length
decreasing_by
  have := length_le_of_takeField _h
  simp only [List.length_cons] at this
  omega

/-- The text after the line feed it begins with, or the whole text if it begins with none. -/
def dropLineFeed : List Char → List Char
  | '\n' :: r => r
  | t => t

/-- Whether a record is a single field of blanks alone. -/
def isBlank (fields : List (List Char)) : Bool :=
  match fields with
  | [field] => (Text.trim field).isEmpty
  | _ => false

/-- A record with the line it begins on. -/
structure Numbered where
  line : Nat
  fields : List (List Char)
  deriving DecidableEq, Repr

/-- The records of a text that begins on a given line. Each pass reads one record with the line feed at its end, and the line
grows by the line feeds read; a pass that would read nothing ends the text. -/
def readFrom (delimiter : Char) (line : Nat) (t : List Char) : Except GrammarError (List Numbered) :=
  if t = [] then .ok []
  else
    match takeFields delimiter t with
    | none => .error ⟨line, .unterminatedQuote⟩
    | some (fields, u) =>
      let rest := dropLineFeed u
      if _h : rest.length < t.length then
        let next := line + (t.take (t.length - rest.length)).count '\n'
        match readFrom delimiter next rest with
        | .error e => .error e
        | .ok records => .ok (if isBlank fields then records else ⟨line, fields⟩ :: records)
      else .ok []
termination_by t.length

/-- The text without the byte order mark it may begin with. -/
def dropByteOrderMark : List Char → List Char
  | '\ufeff' :: r => r
  | t => t

/-- The records of a whole text, each with the line it begins on. -/
def read (delimiter : Char) (t : List Char) : Except GrammarError (List Numbered) :=
  readFrom delimiter 1 (dropByteOrderMark t)

end FirstMatch.Record
