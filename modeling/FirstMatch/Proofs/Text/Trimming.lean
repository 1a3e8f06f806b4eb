import FirstMatch.Text.Blank
import Mathlib

/-!
# Runs of characters at the ends of a text

A run of characters of a class ends where the class does (`takeWhile_append_of_stops`, `dropWhile_append_of_stops`), so a text
between blanks is what trimming leaves of them (`trim_between`), if it neither begins nor ends with a blank itself (`Trimmed`).
-/

namespace FirstMatch.Text

section Runs

variable {p : Char → Bool} {t rest : List Char}

/-- What is taken from a text ends where a property stops. -/
theorem takeWhile_append_of_stops (ht : ∀ c ∈ t, p c = true) (hrest : ∀ c, rest.head? = some c → p c = false) :
    (t ++ rest).takeWhile p = t := by
  have hstop : rest.takeWhile p = [] := by
    cases rest with
    | nil => rfl
    | cons c r => simp [hrest c rfl]
  rw [List.takeWhile_append_of_pos ht, hstop, List.append_nil]

/-- What is dropped from a text ends where a property stops. -/
theorem dropWhile_append_of_stops (ht : ∀ c ∈ t, p c = true) (hrest : ∀ c, rest.head? = some c → p c = false) :
    (t ++ rest).dropWhile p = rest := by
  rw [List.dropWhile_append_of_pos ht, dropWhile_eq_self hrest]

/-- What is dropped at the end is the run of the class that ends the text. -/
theorem dropEndWhile_append (ht : ∀ c, t.getLast? = some c → p c = false) (hrest : ∀ c ∈ rest, p c = true) :
    dropEndWhile p (t ++ rest) = t := by
  rw [dropEndWhile, List.reverse_append, dropWhile_append_of_stops, List.reverse_reverse]
  · simpa using hrest
  · simpa using ht

/-- What ends in no character of the class, with more after it, loses what the rest does. -/
theorem dropEndWhile_append_of_stops (ht : ∀ c, t.getLast? = some c → p c = false) (rest : List Char) :
    dropEndWhile p (t ++ rest) = t ++ dropEndWhile p rest := by
  have hstop : t.reverse.dropWhile p = t.reverse := dropWhile_eq_self fun c hc => ht c (by rwa [List.head?_reverse] at hc)
  rw [dropEndWhile, List.reverse_append, List.dropWhile_append, dropEndWhile]
  split
  · next hall =>
    rw [List.isEmpty_iff] at hall
    rw [hstop, hall, List.reverse_reverse, List.reverse_nil, List.append_nil]
  · rw [List.reverse_append, List.reverse_reverse]

theorem subset_dropEndWhile (p : Char → Bool) (t : List Char) : dropEndWhile p t ⊆ t := by
  intro c hc
  rw [dropEndWhile, List.mem_reverse] at hc
  exact List.mem_reverse.1 ((List.dropWhile_suffix p).subset hc)

end Runs

/-! ## Blanks -/

/-- A text that neither begins nor ends with a blank. -/
structure Trimmed (t : List Char) : Prop where
  start : ∀ c, t.head? = some c → isBlank c = false
  stop : ∀ c, t.getLast? = some c → isBlank c = false

/-- What trimming leaves as it is begins and ends with no blank. -/
theorem trimmed_of_trim {t : List Char} (h : trim t = t) : Trimmed t := by
  have hstart : trimStart t = t := by
    refine (List.dropWhile_suffix isBlank).eq_of_length_le ?_
    have hle : (trimEnd (trimStart t)).length ≤ (trimStart t).length := by
      rw [trimEnd, dropEndWhile, List.length_reverse]
      exact (List.length_dropWhile_le _ _).trans_eq (List.length_reverse)
    rwa [← trim, h] at hle
  rw [trim, hstart] at h
  constructor
  · intro c hc
    have := List.head?_dropWhile_not isBlank t
    rw [← trimStart, hstart, hc] at this
    simpa using this
  · intro c hc
    have hreverse : t.reverse.dropWhile isBlank = t.reverse := by
      rw [← List.reverse_inj, List.reverse_reverse]
      exact h
    have := List.head?_dropWhile_not isBlank t.reverse
    rw [hreverse, List.head?_reverse, hc] at this
    simpa using this

/-- A text without blanks has none around it. -/
theorem trimmed_of_forall {t : List Char} (h : ∀ c ∈ t, isBlank c = false) : Trimmed t where
  start c hc := h c (List.mem_of_mem_head? hc)
  stop c hc := h c (List.mem_of_mem_getLast? hc)

/-- What begins with such a text begins with no blank. -/
theorem Trimmed.start_append {t : List Char} (h : Trimmed t) (hne : t ≠ []) (rest : List Char) :
    ∀ c, (t ++ rest).head? = some c → isBlank c = false := by
  intro c hc
  rw [List.head?_append_of_ne_nil _ hne] at hc
  exact h.start c hc

/-- What ends with such a text ends with no blank. -/
theorem Trimmed.stop_append {t : List Char} (h : Trimmed t) (hne : t ≠ []) (before : List Char) :
    ∀ c, (before ++ t).getLast? = some c → isBlank c = false := by
  intro c hc
  rw [List.getLast?_append_of_ne_nil _ hne] at hc
  exact h.stop c hc

/-- Trimming leaves a text between blanks. -/
theorem trim_between {a t b : List Char} (ha : ∀ c ∈ a, isBlank c = true) (ht : Trimmed t) (hne : t ≠ [])
    (hb : ∀ c ∈ b, isBlank c = true) : trim (a ++ t ++ b) = t := by
  rw [trim, trimStart, List.append_assoc, dropWhile_append_of_stops ha (ht.start_append hne b), trimEnd,
    dropEndWhile_append ht.stop hb]

theorem blank_spaces (k : Nat) : ∀ c ∈ List.replicate k ' ', isBlank c = true := by
  intro c hc
  rw [List.eq_of_mem_replicate hc]
  rfl

/-- Trimming drops spaces after a text. -/
theorem Trimmed.trim_append_spaces {t : List Char} (h : Trimmed t) (hne : t ≠ []) (k : Nat) :
    trim (t ++ List.replicate k ' ') = t := by
  have := trim_between (a := []) (by simp) h hne (blank_spaces k)
  rwa [List.nil_append] at this

/-- Trimming drops spaces before a text. -/
theorem Trimmed.trim_spaces_append {t : List Char} (h : Trimmed t) (hne : t ≠ []) (k : Nat) :
    trim (List.replicate k ' ' ++ t) = t := by
  have := trim_between (blank_spaces k) h hne (b := []) (by simp)
  rwa [List.append_nil] at this

/-- Behind such a text, trimming drops the blanks at the end alone. -/
theorem Trimmed.trim_append {t : List Char} (h : Trimmed t) (hne : t ≠ []) (rest : List Char) :
    trim (t ++ rest) = t ++ trimEnd rest := by
  have hstart : trimStart (t ++ rest) = t ++ rest := dropWhile_eq_self (h.start_append hne rest)
  rw [trim, hstart, trimEnd, dropEndWhile_append_of_stops h.stop, trimEnd]

/-- Nothing is left of blanks alone. -/
theorem trim_eq_nil {t : List Char} (ht : ∀ c ∈ t, isBlank c = true) : trim t = [] := by
  have h : trimStart t = [] := by
    rw [trimStart, List.dropWhile_eq_nil_iff]
    exact ht
  rw [trim, h]
  rfl

/-- What is trimmed neither begins nor ends with a blank. -/
theorem trimmed_trim (t : List Char) : Trimmed (trim t) := by
  have hfirst : ∀ u : List Char, ∀ c, (u.dropWhile isBlank).head? = some c → isBlank c = false := by
    intro u c hc
    have := List.head?_dropWhile_not isBlank u
    rw [hc] at this
    simpa using this
  have hprefix : trim t <+: trimStart t := by
    rw [trim, trimEnd, dropEndWhile, ← List.reverse_suffix, List.reverse_reverse]
    exact List.dropWhile_suffix isBlank
  constructor
  · intro c hc
    obtain ⟨rest, hrest⟩ := hprefix
    refine hfirst t c ?_
    rw [← trimStart, ← hrest, List.head?_append, hc, Option.some_or]
  · intro c hc
    rw [trim, trimEnd, dropEndWhile, List.getLast?_reverse] at hc
    exact hfirst _ c hc

@[simp] theorem trim_trim (t : List Char) : trim (trim t) = trim t := trim_eq_self (trimmed_trim t).start (trimmed_trim t).stop

/-- A text is what trimming leaves of it, between blanks. -/
theorem exists_trim (t : List Char) :
    ∃ a b, t = a ++ trim t ++ b ∧ (∀ c ∈ a, isBlank c = true) ∧ ∀ c ∈ b, isBlank c = true := by
  refine ⟨t.takeWhile isBlank, ((trimStart t).reverse.takeWhile isBlank).reverse, ?_, fun c hc => List.mem_takeWhile_imp hc,
    fun c hc => List.mem_takeWhile_imp (List.mem_reverse.1 hc)⟩
  rw [List.append_assoc, trim, trimEnd, dropEndWhile, ← List.reverse_append, List.takeWhile_append_dropWhile,
    List.reverse_reverse, trimStart, List.takeWhile_append_dropWhile]

/-- More blanks around a text are trimmed with those that it has. -/
theorem trim_pad {a b : List Char} (ha : ∀ c ∈ a, isBlank c = true) (hb : ∀ c ∈ b, isBlank c = true) (t : List Char) :
    trim (a ++ t ++ b) = trim t := by
  obtain ⟨x, y, ht, hx, hy⟩ := exists_trim t
  by_cases hne : trim t = []
  · rw [hne, List.append_nil] at ht
    rw [hne]
    refine trim_eq_nil fun c hc => ?_
    simp only [ht, List.mem_append] at hc
    rcases hc with (hc | hc | hc) | hc
    · exact ha c hc
    · exact hx c hc
    · exact hy c hc
    · exact hb c hc
  · have hsplit : a ++ t ++ b = a ++ x ++ trim t ++ (y ++ b) := by
      conv_lhs => rw [ht]
      simp only [List.append_assoc]
    rw [hsplit]
    exact trim_between (List.forall_mem_append.2 ⟨ha, hx⟩) (trimmed_trim t) hne (List.forall_mem_append.2 ⟨hy, hb⟩)

theorem mem_dropWhile {p : Char → Bool} {t : List Char} {c : Char} (hc : c ∈ t) (hp : p c = false) : c ∈ t.dropWhile p := by
  rw [← List.takeWhile_append_dropWhile (p := p) (l := t), List.mem_append] at hc
  refine hc.resolve_left fun htake => ?_
  rw [List.mem_takeWhile_imp htake] at hp
  cases hp

/-- Trimming leaves all that is not blank. -/
theorem mem_trim {t : List Char} {c : Char} (hc : c ∈ t) (hb : isBlank c = false) : c ∈ trim t := by
  have hstart : c ∈ trimStart t := mem_dropWhile hc hb
  rw [trim, trimEnd, dropEndWhile, List.mem_reverse]
  exact mem_dropWhile (List.mem_reverse.2 hstart) hb

end FirstMatch.Text
