import FirstMatch.Text.Cut
import Mathlib

/-!
# Where a text is cut

A text is cut where the separator first or last begins, so a part in which no separator begins moves through a cut unchanged
(`cutFirst_append`, `cutLast_append`). A word between two spaces overlaps itself in a single space only: between two texts it is
found, unless it occurs in the first with a space after it, or in the second with a space before it (`cutFirst_word`,
`cutLast_word`).
-/

namespace FirstMatch.Text

/-- A beginning cannot be dropped from a text that does not begin with it. -/
theorem dropBeginning_eq_none_iff {p t : List Char} : dropBeginning? p t = none ↔ ¬p <+: t := by
  rw [Option.eq_none_iff_forall_ne_some]
  constructor
  · rintro h ⟨r, rfl⟩
    exact h r (dropBeginning_append p r)
  · intro h r hr
    exact h ⟨r, (eq_append_of_dropBeginning hr).symm⟩

/-- A text without a separator is not cut. -/
theorem cutFirst_eq_none_iff {sep t : List Char} : cutFirst sep t = none ↔ ¬sep <:+: t := by
  induction t with
  | nil => rw [cutFirst, Option.map_eq_none_iff, dropBeginning_eq_none_iff, List.prefix_nil, List.infix_nil]
  | cons c cs ih =>
    rw [cutFirst, List.infix_cons_iff, not_or, ← ih, ← dropBeginning_eq_none_iff]
    cases dropBeginning? sep (c :: cs) <;> simp

/-- A text cannot be cut at the last occurrence of what does not occur in it. -/
theorem cutLast_eq_none_iff {sep t : List Char} : cutLast sep t = none ↔ ¬sep <:+: t := by
  induction t with
  | nil => rw [cutLast, Option.map_eq_none_iff, dropBeginning_eq_none_iff, List.prefix_nil, List.infix_nil]
  | cons c cs ih =>
    rw [cutLast, List.infix_cons_iff, not_or, ← ih, ← dropBeginning_eq_none_iff]
    cases cutLast sep cs <;> simp

section Cuts

variable {c : Char} {sep a b rest : List Char}

/-- Where no separator begins in the first part of a text, the first cut is that of the second part. -/
theorem cutFirst_append (h : ∀ s, s ≠ [] → s <:+ a → ¬sep <+: s ++ b) :
    cutFirst sep (a ++ b) = (cutFirst sep b).map fun (before, rest) => (a ++ before, rest) := by
  induction a with
  | nil => simp
  | cons c a ih =>
    have hc : dropBeginning? sep (c :: (a ++ b)) = none :=
      dropBeginning_eq_none_iff.2 (h (c :: a) (by simp) (List.suffix_refl _))
    rw [List.cons_append, cutFirst, hc, ih fun s hs hsuffix => h s hs (hsuffix.trans (List.suffix_cons c a)),
      Option.map_map]
    rfl

theorem cutFirst_self (c : Char) (sep rest : List Char) : cutFirst (c :: sep) (c :: sep ++ rest) = some ([], rest) := by
  have h := dropBeginning_append (c :: sep) rest
  rw [List.cons_append] at h ⊢
  rw [cutFirst, h]

/-- A separator that begins with another character does not begin in a text. -/
theorem not_prefix_of_head {s : List Char} (hs : s ≠ []) (hc : c ∉ s) : ¬(c :: sep) <+: s ++ b := by
  obtain ⟨d, s, rfl⟩ := List.exists_cons_of_ne_nil hs
  rw [List.cons_append, List.cons_prefix_cons]
  rintro ⟨rfl, -⟩
  exact hc List.mem_cons_self

/-- Nor does it occur in a text and what follows, if it does not in what follows. -/
theorem not_infix_append (hc : c ∉ a) (hb : ¬(c :: sep) <:+: b) : ¬(c :: sep) <:+: a ++ b := by
  rw [← cutFirst_eq_none_iff] at hb ⊢
  rw [cutFirst_append fun s hs hsuffix => not_prefix_of_head hs fun hm => hc (hsuffix.subset hm), hb]
  rfl

/-- The same of a separator that ends with another character than the second text has. -/
theorem not_infix_append_of_last (hc : c ∉ b) (ha : ¬(sep ++ [c]) <:+: a) : ¬(sep ++ [c]) <:+: a ++ b := by
  rw [← List.reverse_infix, List.reverse_append, List.reverse_append, List.reverse_singleton, List.singleton_append]
  refine not_infix_append (by simpa using hc) ?_
  rw [← List.reverse_infix] at ha
  simpa using ha

/-- A separator does not reach over a character that it does not hold. -/
theorem cutFirst_append_cons (hc : c ∉ sep) (ha : ¬sep <:+: a) :
    cutFirst sep (a ++ c :: b) = (cutFirst sep (c :: b)).map fun (before, rest) => (a ++ before, rest) := by
  refine cutFirst_append fun s _ hsuffix hp => ?_
  have hnext : s ++ [c] <+: s ++ c :: b := ⟨b, by simp⟩
  rcases List.prefix_or_prefix_of_prefix hp hnext with hq | hq
  · rcases List.prefix_concat_iff.1 hq with rfl | hq
    · exact hc (by simp)
    · exact ha (hq.isInfix.trans hsuffix.isInfix)
  · exact hc (hq.subset (by simp))

/-- So it occurs before or after the character. -/
theorem not_infix_append_cons (hc : c ∉ sep) (ha : ¬sep <:+: a) (hb : ¬sep <:+: c :: b) : ¬sep <:+: a ++ c :: b := by
  rw [← cutFirst_eq_none_iff] at hb ⊢
  rw [cutFirst_append_cons hc ha, hb]
  rfl

/-- What follows a text does not change its first cut. -/
theorem cutFirst_append_right (hsep : sep ≠ []) (h : cutFirst sep a = some (b, rest)) (more : List Char) :
    cutFirst sep (a ++ more) = some (b, rest ++ more) := by
  induction a generalizing b with
  | nil =>
    have hnone : cutFirst sep [] = none := by rwa [cutFirst_eq_none_iff, List.infix_nil]
    rw [hnone] at h
    cases h
  | cons c a ih =>
    rw [cutFirst] at h
    rw [List.cons_append, cutFirst]
    cases hd : dropBeginning? sep (c :: a) with
    | some u =>
      rw [hd] at h
      cases h
      have hu : dropBeginning? sep (c :: (a ++ more)) = some (rest ++ more) := by
        rw [← List.cons_append, eq_append_of_dropBeginning hd, List.append_assoc]
        exact dropBeginning_append sep (rest ++ more)
      rw [hu]
    | none =>
      rw [hd] at h
      obtain ⟨⟨b', u⟩, hu, he⟩ := Option.map_eq_some_iff.1 h
      cases he
      -- a separator that begins here and goes on after the text would be longer than the one found in the text
      have hd' : dropBeginning? sep (c :: (a ++ more)) = none := by
        rw [dropBeginning_eq_none_iff] at hd ⊢
        intro hp
        have hlen : sep.length ≤ (c :: a).length := by
          rw [eq_of_cutFirst hu, List.length_cons, List.length_append, List.length_append]
          omega
        exact hd (List.prefix_of_prefix_length_le hp (List.prefix_append (c :: a) more) hlen)
      rw [hd', ih hu]
      rfl

/-- A separator does not occur before its first occurrence. -/
theorem not_infix_of_cutFirst (hsep : sep ≠ []) (h : cutFirst sep a = some (b, rest)) : ¬sep <:+: b := by
  rw [← cutFirst_eq_none_iff, Option.eq_none_iff_forall_ne_some]
  rintro ⟨before, more⟩ hearlier
  have hcut := cutFirst_append_right hsep hearlier (sep ++ rest)
  rw [← List.append_assoc, ← eq_of_cutFirst h, h] at hcut
  obtain ⟨rfl, -⟩ := Prod.ext_iff.1 (Option.some.inj hcut)
  have hparts : b = b ++ (sep ++ more) := by
    have := eq_of_cutFirst hearlier
    rwa [List.append_assoc] at this
  rw [List.self_eq_append_right, List.append_eq_nil_iff] at hparts
  exact hsep hparts.1

/-- Where a later part of a text is cut last, so is the text. -/
theorem cutLast_append {before : List Char} (h : cutLast sep b = some (before, rest)) :
    cutLast sep (a ++ b) = some (a ++ before, rest) := by
  induction a with
  | nil => exact h
  | cons c a ih => rw [List.cons_append, cutLast, ih, List.cons_append]

/-- A separator after which none begins is the last. -/
theorem cutLast_self (h : ¬(c :: sep) <:+: sep ++ rest) : cutLast (c :: sep) (a ++ (c :: sep ++ rest)) = some (a, rest) := by
  have hself : cutLast (c :: sep) (c :: sep ++ rest) = some ([], rest) := by
    have hd := dropBeginning_append (c :: sep) rest
    rw [List.cons_append] at hd ⊢
    rw [cutLast, cutLast_eq_none_iff.2 h, hd]
    rfl
  have hcut := cutLast_append (a := a) hself
  rwa [List.append_nil] at hcut

end Cuts

/-! ## Words between spaces -/

section Words

variable {word t rest : List Char}

/-- A word between spaces that begins in a text, and goes on after it, ends with the space after the text. -/
theorem not_prefix_of_spaced (hword : ' ' ∉ word) (ht : t ≠ []) (h : ¬(' ' :: (word ++ [' '])) <+: t ++ [' ']) :
    ¬(' ' :: (word ++ [' '])) <+: t ++ ' ' :: rest := by
  intro hp
  have hspace : t ++ [' '] <+: t ++ ' ' :: rest := ⟨rest, by simp⟩
  rcases List.prefix_or_prefix_of_prefix hp hspace with hq | hq
  · exact h hq
  · obtain ⟨c, t, rfl⟩ := List.exists_cons_of_ne_nil ht
    rw [List.cons_append, List.cons_prefix_cons] at hq
    obtain ⟨rfl, hq⟩ := hq
    rw [List.prefix_concat_iff] at hq
    rcases hq with heq | hq
    · exact h (by rw [List.cons_append, heq])
    · exact hword (hq.subset (by simp))

/-- A word between spaces is first found after a text in which, with a space after it, the word does not occur. -/
theorem cutFirst_word (word : List Char) (hword : ' ' ∉ word) (h : ¬(' ' :: (word ++ [' '])) <:+: t ++ [' ']) :
    cutFirst (' ' :: (word ++ [' '])) (t ++ (' ' :: (word ++ [' ']) ++ rest)) = some (t, rest) := by
  have hnone : ∀ s, s ≠ [] → s <:+ t → ¬(' ' :: (word ++ [' '])) <+: s ++ (' ' :: (word ++ [' ']) ++ rest) := by
    intro s hs hsuffix
    obtain ⟨p, rfl⟩ := hsuffix
    refine not_prefix_of_spaced hword hs fun hp => h ?_
    exact hp.isInfix.trans ⟨p, [], by simp⟩
  rw [cutFirst_append hnone, cutFirst_self]
  simp

/-- A word between spaces is last found before a text in which, with a space before it, the word does not occur. -/
theorem cutLast_word (word : List Char) (hword : ' ' ∉ word) (h : ¬(' ' :: (word ++ [' '])) <:+: ' ' :: rest) (t : List Char) :
    cutLast (' ' :: (word ++ [' '])) (t ++ (' ' :: (word ++ [' ']) ++ rest)) = some (t, rest) := by
  refine cutLast_self ?_
  rw [List.append_assoc, List.singleton_append]
  exact not_infix_append hword h

end Words

/-! ## Pieces -/

/-- A text is split where it is cut first, and what follows is split on. -/
theorem splitOn_of_cutFirst {c : Char} {sep t before rest : List Char} (h : cutFirst (c :: sep) t = some (before, rest)) :
    splitOn c sep t = before :: splitOn c sep rest := by
  rw [splitOn]
  split
  · next hnone =>
    rw [h] at hnone
    cases hnone
  · next hsome =>
    rw [h] at hsome
    cases hsome
    rfl

/-- A text without the separator is one piece. -/
theorem splitOn_of_not_infix {c : Char} {sep t : List Char} (h : ¬(c :: sep) <:+: t) : splitOn c sep t = [t] := by
  rw [splitOn]
  split
  · rfl
  · next hsome =>
    rw [cutFirst_eq_none_iff.2 h] at hsome
    cases hsome

/-- The pieces with the separator between them are the text. -/
theorem intercalate_splitOn (c : Char) (sep t : List Char) : (c :: sep).intercalate (splitOn c sep t) = t := by
  induction hn : t.length using Nat.strongRecOn generalizing t with
  | ind n ih =>
    cases hcut : cutFirst (c :: sep) t with
    | none =>
      have hwhole := splitOn_of_not_infix (cutFirst_eq_none_iff.1 hcut)
      rw [hwhole, List.intercalate_singleton]
    | some cut =>
      obtain ⟨before, rest⟩ := cut
      have hne : splitOn c sep rest ≠ [] := by
        rw [splitOn]
        split <;> simp
      rw [splitOn_of_cutFirst hcut, List.intercalate_cons_of_ne_nil hne, ih _ (hn ▸ length_lt_of_cutFirst hcut) rest rfl]
      exact (eq_of_cutFirst hcut).symm

/-- No piece holds the separator. -/
theorem not_infix_of_mem_splitOn {c : Char} {sep t u : List Char} (h : u ∈ splitOn c sep t) : ¬(c :: sep) <:+: u := by
  induction hn : t.length using Nat.strongRecOn generalizing t with
  | ind n ih =>
    cases hcut : cutFirst (c :: sep) t with
    | none =>
      have hnot := cutFirst_eq_none_iff.1 hcut
      have hwhole := splitOn_of_not_infix hnot
      rw [hwhole, List.mem_singleton] at h
      exact h ▸ hnot
    | some cut =>
      obtain ⟨before, rest⟩ := cut
      rw [splitOn_of_cutFirst hcut, List.mem_cons] at h
      rcases h with rfl | h
      · exact not_infix_of_cutFirst (by simp) hcut
      · exact ih _ (hn ▸ length_lt_of_cutFirst hcut) h rfl

/-- A run of characters that the separator does not have stands in one of the pieces. -/
theorem exists_piece {sep run a b : List Char} {pieces : List (List Char)} (hsep : sep ≠ []) (hne : run ≠ [])
    (hrun : ∀ c ∈ run, c ∉ sep) (h : sep.intercalate pieces = a ++ (run ++ b)) :
    ∃ before s t after, pieces = before ++ (s ++ (run ++ t)) :: after ∧ s <:+ a ∧ t <+: b := by
  induction pieces generalizing a with
  | nil => simp [hne] at h
  | cons u rest ih =>
    cases rest with
    | nil =>
      rw [List.intercalate_singleton] at h
      exact ⟨[], a, b, [], by rw [h]; rfl, List.suffix_refl a, List.prefix_refl b⟩
    | cons v rest =>
      rw [List.intercalate_cons_of_ne_nil (by simp), List.append_assoc] at h
      have hlater : ∀ a', a' <:+ a → sep.intercalate (v :: rest) = a' ++ (run ++ b) →
          ∃ before s t after, u :: v :: rest = before ++ (s ++ (run ++ t)) :: after ∧ s <:+ a ∧ t <+: b := by
        intro a' ha' hrest
        obtain ⟨before, s, t, after, hpieces, hs, ht⟩ := ih hrest
        exact ⟨u :: before, s, t, after, by rw [hpieces]; rfl, hs.trans ha', ht⟩
      rcases List.append_eq_append_iff.1 h with ⟨a', rfl, hlate⟩ | ⟨w, rfl, hearly⟩
      · rcases List.append_eq_append_iff.1 hlate with ⟨a'', rfl, hrest⟩ | ⟨w, hw, hinside⟩
        · exact hlater a'' ((List.suffix_append sep a'').trans (List.suffix_append u _)) hrest
        · cases w with
          | nil => exact hlater [] List.nil_suffix hinside.symm
          | cons x w =>
            obtain ⟨y, ys, rfl⟩ := List.exists_cons_of_ne_nil hne
            obtain rfl : y = x := (List.cons.inj hinside).1
            exact absurd (by simp [hw]) (hrun y List.mem_cons_self)
      · rcases List.append_eq_append_iff.1 hearly with ⟨t, rfl, rfl⟩ | ⟨w', rfl, hinside⟩
        · exact ⟨[], a, t, v :: rest, rfl, List.suffix_refl a, List.prefix_append t _⟩
        · cases w' with
          | nil => exact ⟨[], a, [], v :: rest, by simp, List.suffix_refl a, List.nil_prefix⟩
          | cons x w' =>
            obtain ⟨y, ys, rfl⟩ := List.exists_cons_of_ne_nil hsep
            obtain rfl : y = x := (List.cons.inj hinside).1
            exact absurd List.mem_cons_self (hrun y (by simp))

/-- A line feed ends the first line. -/
theorem lines_append {t : List Char} (h : '\n' ∉ t) (rest : List Char) : lines (t ++ '\n' :: rest) = t :: lines rest := by
  induction t with
  | nil => rfl
  | cons c t ih =>
    rw [List.mem_cons, not_or] at h
    rw [List.cons_append, lines, if_neg (Ne.symm h.1), ih h.2]
    rfl

theorem lines_eq_singleton {t : List Char} (h : '\n' ∉ t) : lines t = [t] := by
  induction t with
  | nil => rfl
  | cons c t ih =>
    rw [List.mem_cons, not_or] at h
    rw [lines, if_neg (Ne.symm h.1), ih h.2]
    rfl

end FirstMatch.Text
