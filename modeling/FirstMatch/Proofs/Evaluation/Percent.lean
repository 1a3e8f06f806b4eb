import FirstMatch.Evaluation.Figures
import FirstMatch.Proofs.Binary64.Rounding

/-!
# Percentages in binary64

A percentage is made of two counts by a division and a multiplication, each rounded. It has no minus sign and is no less than zero
(`zero_le_percent`). It lies on the same side of a whole number as the exact percentage (`lt_percent`, `percent_lt`). Where the
exact percentage is the whole number itself, the two roundings come to less than it for 29, 57 and 58, and for no other number up
to a hundred (`natCast_le_percent_iff`).
-/

namespace FirstMatch.Binary64

open Float.Model Float.Model.UnpackedFloat

/-! ## No percentage is negative -/

/-- A percentage has no minus sign. -/
theorem unsigned_percent {part whole : Nat} (hpart : part < 2 ^ 64) (hwhole : whole < 2 ^ 64) :
    Unsigned (percent part whole : Float).toModel.unpack := by
  unfold percent
  split
  · exact unsigned_natCast (by decide)
  · next h0 =>
    have hquotient := ((unsigned_natCast hpart).div (normal_natCast (Nat.pos_of_ne_zero h0) hwhole)).unpack_pack
    exact (hquotient.mul (normal_natCast (by decide : 0 < 100) (by decide))).unpack_pack

/-- A percentage of counts in machine words is no less than zero. -/
theorem zero_le_percent {part whole : Nat} (hpart : part < 2 ^ 64) (hwhole : whole < 2 ^ 64) :
    0 ≤ (percent part whole : Float) :=
  let ⟨r, hr, hle⟩ := (unsigned_percent hpart hwhole).rank
  Rank.le_iff.2 ⟨_, r, rfl, hr, hle⟩

/-- Nothing is zero percent of any whole. -/
theorem percent_zero_left {whole : Nat} (hwhole : whole < 2 ^ 64) : (percent 0 whole : Float) = 0 := by
  unfold percent
  split
  · rfl
  · next h0 =>
    obtain ⟨m, e, hm, hfinite, -⟩ := normal_natCast (Nat.pos_of_ne_zero h0) hwhole
    have hquotient : Float.ofNat 0 / Float.ofNat whole = 0 := by
      show (⟨Float.Model.pack (UnpackedFloat.div Format.binary64 _ (Float.ofNat whole).toModel.unpack)⟩ : Float) = 0
      rw [hfinite]
      rfl
    show Float.ofNat 0 / Float.ofNat whole * Float.ofNat 100 = 0
    rw [hquotient]
    rfl

/-! ## The rounded percentage and the exact one -/

section Exact

variable {part whole : Nat} (h0 : 0 < part) (h0' : 0 < whole) (hpart : part < 2 ^ 53) (hwhole : whole < 2 ^ 53)

include h0 h0' hpart hwhole

/-- Of one row or more, a percentage is the exact quotient rounded, times a hundred, rounded again. -/
theorem rounded_percent : Normal (-120) 85 (percent part whole : Float).toModel.unpack ∧
    ∃ q, Rounded (part / whole) q ∧ Rounded (value q * 100) (percent part whole : Float).toModel.unpack := by
  obtain ⟨hquotient, hrounded⟩ := rounded_div (normal_natCast h0 (hpart.trans (by decide)))
    (normal_natCast h0' (hwhole.trans (by decide))) (by decide) (by decide)
  have hhundred := normal_natCast (by decide : 0 < 100) (by decide)
  obtain ⟨hproduct, hrounded'⟩ := rounded_mul hquotient hhundred (by decide) (by decide)
  rw [value_natCast h0 hpart, value_natCast h0' hwhole] at hrounded
  rw [value_natCast (by decide : 0 < 100) (by decide)] at hrounded'
  unfold percent
  rw [if_neg h0'.ne']
  exact ⟨hproduct, _, hrounded, hrounded'⟩

/-- The two roundings are off by one part in `2 ^ 51` at most. -/
theorem percent_error :
    |value (percent part whole : Float).toModel.unpack - 100 * (part / whole)| * 2 ^ 51 ≤ 100 * (part / whole) := by
  obtain ⟨-, q, hq, hp⟩ := rounded_percent h0 h0' hpart hwhole
  have hquotient := hq.error
  have hproduct := hp.error
  generalize value (percent part whole : Float).toModel.unpack = p at hproduct ⊢
  generalize value q = q at hquotient hproduct
  have hpos : (0 : ℚ) ≤ part / whole := by positivity
  generalize (part : ℚ) / whole = x at hquotient hpos ⊢
  have hq : q ≤ 2 * x := by linarith [le_abs_self (q - x), abs_nonneg (q - x)]
  have hsum : |p - 100 * x| ≤ |p - q * 100| + |q - x| * 100 :=
    calc |p - 100 * x| = |(p - q * 100) + (q - x) * 100| := by ring_nf
      _ ≤ |p - q * 100| + |(q - x) * 100| := abs_add_le _ _
      _ = |p - q * 100| + |q - x| * 100 := by rw [abs_mul]; norm_num
  linarith

/-- A rounded percentage, times the rows that it is taken of, is off by less than one. -/
theorem percent_near (hsmall : 100 * part < 2 ^ 51) :
    |value (percent part whole : Float).toModel.unpack * whole - 100 * part| < 1 := by
  have herror := percent_error h0 h0' hpart hwhole
  have hpos : (0 : ℚ) < whole := by exact_mod_cast h0'
  generalize value (percent part whole : Float).toModel.unpack = p at herror ⊢
  have hexact : 100 * ((part : ℚ) / whole) * whole = 100 * part := by field_simp
  have hoff : |p * whole - 100 * part| = |p - 100 * (part / whole)| * whole := by
    rw [← hexact, ← sub_mul, abs_mul, abs_of_pos hpos]
  have hbound : |p * whole - 100 * part| * 2 ^ 51 ≤ 100 * part :=
    calc |p * whole - 100 * part| * 2 ^ 51 = |p - 100 * ((part : ℚ) / whole)| * 2 ^ 51 * whole := by rw [hoff]; ring
      _ ≤ 100 * ((part : ℚ) / whole) * whole := by gcongr
      _ = 100 * part := hexact
  have hsmall : (100 * part : ℚ) < 2 ^ 51 := by exact_mod_cast hsmall
  linarith

section Whole

variable {t : Nat} (ht0 : 0 < t) (ht : t < 2 ^ 53) (hsmall : 100 * part < 2 ^ 51)

include ht0 ht hsmall

/-- A whole number less than the exact percentage is less than the rounded one. -/
theorem lt_percent (h : t * whole < 100 * part) : ((t : Nat) : Float) < percent part whole := by
  obtain ⟨hnormal, -⟩ := rounded_percent h0 h0' hpart hwhole
  refine lt_of_value (normal_natCast ht0 (ht.trans (by decide))) hnormal ?_
  rw [show value ((t : Nat) : Float).toModel.unpack = t from value_natCast ht0 ht]
  have hnear := (abs_lt.1 (percent_near h0 h0' hpart hwhole hsmall)).1
  have hless : (t * whole + 1 : ℚ) ≤ 100 * part := by exact_mod_cast h
  exact lt_of_mul_lt_mul_right (by linarith) (Nat.cast_nonneg (α := ℚ) whole)

/-- A whole number greater than the exact percentage is greater than the rounded one. -/
theorem percent_lt (h : 100 * part < t * whole) : (percent part whole : Float) < ((t : Nat) : Float) := by
  obtain ⟨hnormal, -⟩ := rounded_percent h0 h0' hpart hwhole
  refine lt_of_value hnormal (normal_natCast ht0 (ht.trans (by decide))) ?_
  rw [show value ((t : Nat) : Float).toModel.unpack = t from value_natCast ht0 ht]
  have hnear := (abs_lt.1 (percent_near h0 h0' hpart hwhole hsmall)).2
  have hless : (100 * part + 1 : ℚ) ≤ t * whole := by exact_mod_cast h
  exact lt_of_mul_lt_mul_right (by linarith) (Nat.cast_nonneg (α := ℚ) whole)

end Whole

/-- Of counts in the same proportion, or in a greater one, the percentage is no less. -/
theorem percent_mono {part' whole' : Nat} (h0p : 0 < part') (h0w : 0 < whole') (hpart' : part' < 2 ^ 53)
    (hwhole' : whole' < 2 ^ 53) (h : part * whole' ≤ part' * whole) : (percent part whole : Float) ≤ percent part' whole' := by
  obtain ⟨hnormal, q, hq, hp⟩ := rounded_percent h0 h0' hpart hwhole
  obtain ⟨hnormal', q', hq', hp'⟩ := rounded_percent h0p h0w hpart' hwhole'
  have hexact : (part : ℚ) / whole ≤ part' / whole' := by
    rw [div_le_div_iff₀ (by exact_mod_cast h0') (by exact_mod_cast h0w)]
    exact_mod_cast h
  have hquotient := hq.mono hq' hexact
  exact le_of_value hnormal hnormal' (hp.mono hp' (by linarith))

end Exact

/-! ## Whole numbers of percent -/

/-- A whole number of percent is reached by a part of a whole, as percentages are rounded: if the exact percentage is greater, or
is that number and the roundings do not come to less. Zero is always reached, and nothing else by a part of nothing. -/
def Reached (t part whole : Nat) : Prop :=
  t = 0 ∨ 0 < whole ∧ (t * whole < 100 * part ∨ t * whole = 100 * part ∧ t ∉ [29, 57, 58])

theorem natCast_pos {t : Nat} (h0 : 0 < t) (h : t < 2 ^ 64) : (0 : Float) < ((t : Nat) : Float) := by
  obtain ⟨m, e, hm, hfinite, -⟩ := normal_natCast h0 h
  refine Rank.lt_iff.2 ⟨_, _, rfl, congrArg Rank.ofUnpacked? hfinite, ?_⟩
  exact Prod.Lex.toLex_lt_toLex.2 (Or.inl (show (0 : Int) < 1 by decide))

/-- Up to a hundred, a number is greater than its rounded percentage of a hundred for 29, 57 and 58. -/
theorem natCast_le_percent_hundred : ∀ t < 101, ((t : Nat) : Float) ≤ percent t 100 ↔ t ∉ [29, 57, 58] := by decide +kernel

/-- A whole number up to a hundred is no greater than a percentage exactly if it is reached. -/
theorem natCast_le_percent_iff {t part whole : Nat} (ht : t ≤ 100) (hpart : 100 * part < 2 ^ 51) (hwhole : whole < 2 ^ 53) :
    ((t : Nat) : Float) ≤ percent part whole ↔ Reached t part whole := by
  rcases t.eq_zero_or_pos with rfl | ht0
  · exact iff_of_true (zero_le_percent (by omega) (by omega)) (Or.inl rfl)
  have hreached : Reached t part whole ↔
      0 < whole ∧ (t * whole < 100 * part ∨ t * whole = 100 * part ∧ t ∉ [29, 57, 58]) := or_iff_right ht0.ne'
  rw [hreached]
  rcases whole.eq_zero_or_pos with rfl | h0'
  · exact iff_of_false (Rank.not_le_of_lt (natCast_pos ht0 (by omega))) fun h => absurd h.1 (Nat.lt_irrefl 0)
  rw [and_iff_right h0']
  have hexact : 0 < t * whole := Nat.mul_pos ht0 h0'
  rcases part.eq_zero_or_pos with rfl | h0
  · rw [percent_zero_left (by omega)]
    exact iff_of_false (Rank.not_le_of_lt (natCast_pos ht0 (by omega))) (by omega)
  rcases Nat.lt_trichotomy (t * whole) (100 * part) with h | h | h
  · exact iff_of_true (Rank.le_of_lt (lt_percent h0 h0' (by omega) hwhole ht0 (by omega) hpart h)) (Or.inl h)
  · have hup := percent_mono h0 h0' (by omega) hwhole ht0 (by decide : 0 < 100) (by omega) (by decide) (by omega)
    have hdown := percent_mono ht0 (by decide : 0 < 100) (by omega) (by decide) h0 h0' (by omega) hwhole (by omega)
    rw [or_iff_right (by omega), and_iff_right h, ← natCast_le_percent_hundred t (by omega)]
    exact ⟨fun hle => Rank.le_trans hle hup, fun hle => Rank.le_trans hle hdown⟩
  · have hlt := percent_lt h0 h0' (by omega) hwhole ht0 (by omega) hpart h
    exact iff_of_false (Rank.not_le_of_lt hlt) (by omega)

end FirstMatch.Binary64
