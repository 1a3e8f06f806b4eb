import Mathlib

/-!
# Counting up at places

Counts are kept in a list, and each number of a sequence raises the count at its place by one. So each place gains the number of
times it occurs, and all together gain the length of the sequence.
-/

namespace FirstMatch

/-- The counts after one more at each of some places; beyond the last place nothing is counted. -/
def countUp (counts places : List Nat) : List Nat := places.foldl (fun counts i => counts.modify i (· + 1)) counts

@[simp] theorem length_countUp (counts places : List Nat) : (countUp counts places).length = counts.length := by
  unfold countUp
  induction places generalizing counts with
  | nil => rfl
  | cons i rest ih => rw [List.foldl_cons, ih, List.length_modify]

/-- Each place gains the number of times it occurs. -/
theorem getElem_countUp (counts places : List Nat) (k : Nat) :
    (countUp counts places)[k]? = (counts[k]?).map (· + places.count k) := by
  unfold countUp
  induction places generalizing counts with
  | nil => simp
  | cons i rest ih =>
    rw [List.foldl_cons, ih, List.getElem?_modify, List.count_cons]
    by_cases h : i = k
    · subst h
      cases counts[i]? <;> simp; omega
    · simp [h]

theorem sum_modify_succ {counts : List Nat} {i : Nat} (hi : i < counts.length) :
    (counts.modify i (· + 1)).sum = counts.sum + 1 := by
  induction counts generalizing i with
  | nil => cases hi
  | cons n rest ih =>
    cases i with
    | zero =>
      rw [List.modify_zero_cons, List.sum_cons, List.sum_cons]
      omega
    | succ i =>
      rw [List.modify_succ_cons, List.sum_cons, List.sum_cons, ih (Nat.lt_of_succ_lt_succ hi)]
      omega

/-- All places together gain as many as are counted. -/
theorem sum_countUp {counts places : List Nat} (h : ∀ i ∈ places, i < counts.length) :
    (countUp counts places).sum = counts.sum + places.length := by
  unfold countUp
  induction places generalizing counts with
  | nil => rfl
  | cons i rest ih =>
    have hrest : ∀ j ∈ rest, j < (counts.modify i (· + 1)).length := by
      intro j hj
      rw [List.length_modify]
      exact h j (List.mem_cons_of_mem i hj)
    rw [List.foldl_cons, ih hrest, sum_modify_succ (h i List.mem_cons_self), List.length_cons]
    omega

end FirstMatch
