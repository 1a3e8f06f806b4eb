/-!
# Cutting a text at a separator

A separator is a non-empty text. `cutFirst` and `cutLast` split at its first and at its last occurrence, `splitOn` at every
occurrence from the left that does not overlap the one before; what is cut, joined by the separator, is the text again.
-/

namespace FirstMatch.Text

/-- What follows a given beginning of a text, if it begins so. -/
def dropBeginning? : List Char → List Char → Option (List Char)
  | [], t => some t
  | _ :: _, [] => none
  | p :: ps, c :: cs => if p = c then dropBeginning? ps cs else none

/-- The texts before and after the first occurrence of a separator. -/
def cutFirst (sep : List Char) : List Char → Option (List Char × List Char)
  | [] => (dropBeginning? sep []).map (([], ·))
  | c :: cs =>
    match dropBeginning? sep (c :: cs) with
    | some rest => some ([], rest)
    | none => (cutFirst sep cs).map fun (before, rest) => (c :: before, rest)

/-- The texts before and after the last occurrence of a separator. -/
def cutLast (sep : List Char) : List Char → Option (List Char × List Char)
  | [] => (dropBeginning? sep []).map (([], ·))
  | c :: cs =>
    match cutLast sep cs with
    | some (before, rest) => some (c :: before, rest)
    | none => (dropBeginning? sep (c :: cs)).map (([], ·))

/-- Whether a text occurs in another. -/
def occurs (sep t : List Char) : Bool := (cutFirst sep t).isSome

theorem eq_append_of_dropBeginning {p t rest : List Char} (h : dropBeginning? p t = some rest) : t = p ++ rest := by
  induction p generalizing t with
  | nil => simpa [dropBeginning?] using h
  | cons a p ih =>
    cases t with
    | nil => simp [dropBeginning?] at h
    | cons c cs =>
      rw [dropBeginning?] at h
      split at h
      · next he => rw [ih h, he, List.cons_append]
      · simp at h

@[simp] theorem dropBeginning_append (p rest : List Char) : dropBeginning? p (p ++ rest) = some rest := by
  induction p with
  | nil => simp [dropBeginning?]
  | cons a p ih => simp [dropBeginning?, ih]

/-- The two parts of a first cut, with the separator between them, are the text. -/
theorem eq_of_cutFirst {sep t before rest : List Char} (h : cutFirst sep t = some (before, rest)) :
    t = before ++ sep ++ rest := by
  induction t generalizing before with
  | nil =>
    obtain ⟨u, hu, he⟩ := Option.map_eq_some_iff.1 h
    cases he
    simpa using eq_append_of_dropBeginning hu
  | cons c cs ih =>
    rw [cutFirst] at h
    split at h
    · next hd =>
      cases h
      simpa using eq_append_of_dropBeginning hd
    · obtain ⟨⟨b, u⟩, hu, he⟩ := Option.map_eq_some_iff.1 h
      cases he
      simp [ih hu]

/-- What a cut at a separator leaves is shorter than the text. -/
theorem length_lt_of_cutFirst {c : Char} {sep t before rest : List Char}
    (h : cutFirst (c :: sep) t = some (before, rest)) : rest.length < t.length := by
  rw [eq_of_cutFirst h]
  simp
  omega

/-- The pieces of a text between the occurrences of a separator `c :: sep`, found from the left without overlap. -/
def splitOn (c : Char) (sep t : List Char) : List (List Char) :=
  match _h : cutFirst (c :: sep) t with
  | none => [t]
  | some (before, rest) => before :: splitOn c sep rest
termination_by t.length
decreasing_by exact length_lt_of_cutFirst _h

/-- The pieces of a text between its line feeds: one more than it has line feeds. -/
def lines : List Char → List (List Char)
  | [] => [[]]
  | c :: cs => if c = '\n' then [] :: lines cs else (lines cs).modifyHead (c :: ·)

end FirstMatch.Text
