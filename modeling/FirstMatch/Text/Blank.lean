import FirstMatch.Text.CharSet

/-!
# Blank characters and trimming

A blank is a character with the White_Space property of Unicode, line ends included. Names, labels, literals and cells are read
without the blanks around them, and a line of blanks alone counts as empty.
-/

namespace FirstMatch.Text

/-- The characters with the White_Space property: tab to carriage return, the space, the next-line and no-break characters, and
the spaces and separators above them. -/
def isBlank (c : Char) : Bool :=
  let n := c.toNat
  (9 ≤ n && n ≤ 13) || n == 32 || n == 0x85 || n == 0xA0 || n == 0x1680 || (0x2000 ≤ n && n ≤ 0x200A) || n == 0x2028 ||
    n == 0x2029 || n == 0x202F || n == 0x205F || n == 0x3000

/-- The set of the blanks. -/
def blanks : CharSet := .ofRanges [
    (9, 13), (32, 32), (0x85, 0x85), (0xA0, 0xA0), (0x1680, 0x1680), (0x2000, 0x200A), (0x2028, 0x2029), (0x202F, 0x202F),
    (0x205F, 0x205F), (0x3000, 0x3000)]

/-- The text without the blanks it begins with. -/
def trimStart (t : List Char) : List Char := t.dropWhile isBlank

/-- The text without the characters of a class that it ends with. -/
def dropEndWhile (p : Char → Bool) (t : List Char) : List Char := (t.reverse.dropWhile p).reverse

/-- The text without the blanks it ends with. -/
def trimEnd (t : List Char) : List Char := dropEndWhile isBlank t

/-- The text without the blanks around it. -/
def trim (t : List Char) : List Char := trimEnd (trimStart t)

/-- The set of the blanks holds what is blank. -/
theorem contains_blanks (c : Char) : blanks.contains c = isBlank c := by
  simp only [blanks, CharSet.ofRanges, CharSet.contains, CharSet.holds, List.flatMap_cons, List.flatMap_nil, List.cons_append,
    List.nil_append, CharSet.holdsFrom, isBlank]
  generalize c.toNat = n
  rw [Bool.eq_iff_iff]
  simp only [Bool.not_false, Bool.not_true, Bool.if_false_left, Bool.if_true_left, Bool.or_eq_true, Bool.and_eq_true,
    Bool.not_eq_true', decide_eq_true_eq, decide_eq_false_iff_not, beq_iff_eq, Bool.false_eq_true, or_false]
  omega

/-- A text that begins and ends with no blank is left as it is. -/
theorem dropWhile_eq_self {p : Char → Bool} {t : List Char} (h : ∀ c, t.head? = some c → p c = false) :
    t.dropWhile p = t := by
  cases t with
  | nil => rfl
  | cons c r => simp [List.dropWhile, h c rfl]

theorem trim_eq_self {t : List Char} (hs : ∀ c, t.head? = some c → isBlank c = false)
    (he : ∀ c, t.getLast? = some c → isBlank c = false) : trim t = t := by
  have h1 : trimStart t = t := dropWhile_eq_self hs
  have h2 : t.reverse.dropWhile isBlank = t.reverse :=
    dropWhile_eq_self (fun c hc => he c (by rwa [List.head?_reverse] at hc))
  rw [trim, h1, trimEnd, dropEndWhile, h2, List.reverse_reverse]

end FirstMatch.Text
