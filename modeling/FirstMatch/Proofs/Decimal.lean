import FirstMatch.Decimal.Numeral
import FirstMatch.Decimal.Shortest
import Mathlib

/-!
# The digits of written numbers

A natural number is read back from its digits, which begin with a zero for zero alone. The text of any number is made of digits,
a point, a minus and the letters of the words for what is not finite, so nothing that separates the words of a line stands in it.
-/

namespace FirstMatch.Decimal

/-! ## Natural numbers -/

/-- Natural numbers are written in digits. -/
theorem isDigit_of_mem_digitText {n : Nat} {c : Char} (h : c ∈ digitText n) : c.isDigit = true :=
  Nat.isDigit_of_mem_toDigits (by decide) (by decide) h

theorem digitText_ne_nil (n : Nat) : digitText n ≠ [] := Nat.toDigits_ne_nil

/-- The digits of a natural number are read as the number. -/
@[simp] theorem ofDigits_digitText (n : Nat) : ofDigits (digitText n) = n := by
  have h : ofDigits (digitText n) = Nat.ofDigitChars 10 (digitText n) 0 := Nat.ofDigitChars_eq_foldl.symm
  rw [h]
  exact Nat.ofDigitChars_ten_toDigits

/-- No number but zero is written with a zero first. -/
theorem head_digitText {n : Nat} (hn : n ≠ 0) : (digitText n).head? ≠ some '0' := by
  induction n using Nat.strongRecOn with
  | ind n ih =>
    rw [digitText, Nat.toDigits_eq_if (by decide)]
    by_cases hlt : n < 10
    · rw [if_pos hlt]
      interval_cases n <;> simp_all [Nat.digitChar]
    · have hrest := ih (n / 10) (by omega) (by omega)
      rw [if_neg hlt, List.head?_append_of_ne_nil _ Nat.toDigits_ne_nil]
      exact hrest

/-! ## All numbers -/

/-- The characters that texts of numbers are made of. -/
def IsNumeric (c : Char) : Prop := c.isDigit = true ∨ c ∈ ['-', '.', 'N', 'a', 'i', 'n', 'f']

instance (c : Char) : Decidable (IsNumeric c) :=
  inferInstanceAs (Decidable (c.isDigit = true ∨ c ∈ ['-', '.', 'N', 'a', 'i', 'n', 'f']))

/-- A decimal point between digits leaves a numeric text. -/
theorem withPoint_numeric {ds : List Char} (hds : ∀ c ∈ ds, IsNumeric c) (places : Nat) :
    ∀ c ∈ withPoint ds places, IsNumeric c := by
  have hpadded : ∀ c ∈ List.replicate (places + 1 - ds.length) '0' ++ ds, IsNumeric c := by
    intro c hc
    rcases List.mem_append.1 hc with hc | hc
    · rw [List.eq_of_mem_replicate hc]
      exact Or.inl rfl
    · exact hds c hc
  intro c hc
  unfold withPoint at hc
  split at hc
  · exact hds c hc
  · rcases List.mem_append.1 hc with hc | hc
    · exact hpadded c (List.mem_of_mem_take hc)
    · rcases List.mem_cons.1 hc with rfl | hc
      · exact Or.inr (by simp)
      · exact hpadded c (List.mem_of_mem_drop hc)

theorem withPoint_ne_nil {ds : List Char} (hds : ds ≠ []) (places : Nat) : withPoint ds places ≠ [] := by
  unfold withPoint
  split
  · exact hds
  · simp

/-- The digits of a natural number are numeric. -/
theorem digitText_numeric (n : Nat) : ∀ c ∈ digitText n, IsNumeric c := fun _ hc => Or.inl (isDigit_of_mem_digitText hc)

/-- The shortest text of a number is numeric and not empty. -/
theorem shortestText_numeric (d : Dyadic) : shortestText d ≠ [] ∧ ∀ c ∈ shortestText d, IsNumeric c := by
  unfold shortestText
  split
  · exact ⟨by simp, fun c hc => Or.inl (by rw [List.mem_singleton.1 hc]; rfl)⟩
  · unfold Scaled.text
    split
    · refine ⟨by simp [digitText_ne_nil], fun c hc => ?_⟩
      rcases List.mem_append.1 hc with hc | hc
      · exact digitText_numeric _ c hc
      · rw [List.eq_of_mem_replicate hc]
        exact Or.inl rfl
    · exact ⟨withPoint_ne_nil (digitText_ne_nil _) _, withPoint_numeric (digitText_numeric _) _⟩

/-- The text of a number is made of numeric characters, at least one. -/
theorem text_numeric (x : Float) : (text x).toList ≠ [] ∧ ∀ c ∈ (text x).toList, IsNumeric c := by
  have hbody : ∀ body : List Char, body ≠ [] ∧ (∀ c ∈ body, IsNumeric c) →
      (if isNegative x then '-' :: body else body) ≠ [] ∧ ∀ c ∈ (if isNegative x then '-' :: body else body), IsNumeric c := by
    rintro body ⟨hne, hbody⟩
    split
    · refine ⟨by simp, fun c hc => ?_⟩
      rcases List.mem_cons.1 hc with rfl | hc
      · exact Or.inr (by simp)
      · exact hbody c hc
    · exact ⟨hne, hbody⟩
  rw [text, String.toList_ofList, textWith]
  split
  · exact ⟨by simp, fun c hc => Or.inr (by simp at hc ⊢; tauto)⟩
  · refine hbody _ ?_
    split
    · exact ⟨by simp, fun c hc => Or.inr (by simp at hc ⊢; tauto)⟩
    · exact shortestText_numeric _

/-- Words between spaces that hold another character do not stand in the text of a number, nor around it. -/
theorem not_infix_text (word : List Char) {c : Char} (hc : c ∈ word) (hspace : c ≠ ' ') (hother : ¬IsNumeric c) (x : Float) :
    ¬word <:+: ' ' :: ((text x).toList ++ [' ']) := by
  intro hin
  have hm : c ∈ (text x).toList := by simpa [hspace] using hin.subset hc
  exact hother ((text_numeric x).2 c hm)

end FirstMatch.Decimal
