import FirstMatch.Proofs.Binary64

/-!
# Rounding to 53 bits

A natural number together with what is known of the rest beyond it stands for an exact number (`Stands`), and stays so while its
bits are shifted out. So the result of an operation is its exact value rounded to 53 bits, ties to even (`Rounded`). A greater exact
value has no smaller rounding (`Rounded.mono`), the rounding is near it (`Rounded.error`), and a natural number of 53 bits is kept
(`Rounded.exact`).
-/

namespace FirstMatch.Binary64

open Float.Model Float.Model.UnpackedFloat

/-! ## A number and the rest beyond it -/

/-- A natural number stands for an exact one: nothing is beyond it, less than a half, a half, or more than a half. -/
def Stands (m : Nat) (x : ℚ) : Accuracy → Prop
  | .exact => x = m
  | .inexact .lt => m < x ∧ x < m + 1 / 2
  | .inexact .eq => x = m + 1 / 2
  | .inexact .gt => m + 1 / 2 < x ∧ x < m + 1

/-- An exact number lies less than one beyond the natural number that stands for it. -/
theorem Stands.bounds {m : Nat} {x : ℚ} {acc : Accuracy} (h : Stands m x acc) : (m : ℚ) ≤ x ∧ x < m + 1 := by
  rcases acc with _ | (_ | _ | _) <;> simp only [Stands] at h <;> constructor <;> linarith

/-- What is rounded is off by a half at most. -/
theorem Stands.rounded_error {m : Nat} {x : ℚ} {acc : Accuracy} (h : Stands m x acc) :
    |(acc.roundToNearestEven m : Nat) - x| ≤ 1 / 2 := by
  rw [abs_le]
  rcases acc with _ | (_ | _ | _) <;> simp only [Stands] at h <;> simp only [Accuracy.roundToNearestEven]
  · constructor <;> linarith
  · constructor <;> linarith
  · rcases Nat.mod_two_eq_zero_or_one m with hm | hm <;> rw [hm] <;> push_cast <;> constructor <;> linarith
  · push_cast
    constructor <;> linarith

/-- Of two numbers, the one that is not greater is not rounded to more. -/
theorem Stands.rounded_le {m m' : Nat} {x x' : ℚ} {acc acc' : Accuracy} (h : Stands m x acc) (h' : Stands m' x' acc')
    (hle : x ≤ x') : acc.roundToNearestEven m ≤ acc'.roundToNearestEven m' := by
  have hm : m ≤ m' := by
    have hlt : (m : ℚ) < m' + 1 := (h.bounds.1.trans hle).trans_lt h'.bounds.2
    exact Nat.lt_succ_iff.1 (by exact_mod_cast hlt)
  rcases hm.lt_or_eq with hlt | rfl
  · exact (roundToNearestEven_bounds m acc).2.trans ((Nat.succ_le_of_lt hlt).trans (roundToNearestEven_bounds m' acc').1)
  · rcases acc with _ | (_ | _ | _) <;> rcases acc' with _ | (_ | _ | _) <;>
      simp only [Stands] at h h' <;> simp only [Accuracy.roundToNearestEven] <;> first | omega | (exfalso; linarith)

/-- What stands for a natural number is rounded to it. -/
theorem Stands.rounded_natCast {m n : Nat} {acc : Accuracy} (h : Stands m n acc) : acc.roundToNearestEven m = n :=
  have hn : Stands n n .exact := rfl
  Nat.le_antisymm (h.rounded_le hn le_rfl) (hn.rounded_le h le_rfl)

/-- A remainder of a division is the rest beyond the quotient. -/
theorem stands_div (m : Nat) {n : Nat} (hn : 0 < n) : Stands (m / n) ((m : ℚ) / n) (accuracyOfFraction (m % n) n) := by
  have hpos : (0 : ℚ) < n := by exact_mod_cast hn
  have hx : (m : ℚ) / n = (m / n : Nat) + (m % n : Nat) / n := by
    rw [eq_comm, ← eq_sub_iff_add_eq', div_eq_iff hpos.ne', sub_mul, div_mul_cancel₀ _ hpos.ne']
    exact eq_sub_of_add_eq (by exact_mod_cast Nat.mod_add_div' m n)
  have hlt : (m % n : Nat) / (n : ℚ) < 1 := (div_lt_one hpos).2 (by exact_mod_cast Nat.mod_lt m hn)
  rw [hx]
  generalize m % n = r at hlt ⊢
  unfold accuracyOfFraction
  split
  · next h0 => simp [Stands, h0]
  · next h0 =>
    have hr : (0 : ℚ) < r / n := div_pos (by exact_mod_cast Nat.pos_of_ne_zero h0) hpos
    rcases Nat.lt_trichotomy (2 * r) n with h | h | h
    · have hhalf : (r : ℚ) / n < 1 / 2 := by
        rw [div_lt_div_iff₀ hpos two_pos]
        exact_mod_cast (by omega : r * 2 < 1 * n)
      rw [compare_lt_iff_lt.2 h]
      exact ⟨by linarith, by linarith⟩
    · have hhalf : (r : ℚ) / n = 1 / 2 := by
        rw [div_eq_div_iff hpos.ne' two_ne_zero]
        exact_mod_cast (by omega : r * 2 = 1 * n)
      rw [compare_eq_iff_eq.2 h]
      show _ = _
      linarith
    · have hhalf : (1 : ℚ) / 2 < r / n := by
        rw [div_lt_div_iff₀ two_pos hpos]
        exact_mod_cast (by omega : 1 * n < r * 2)
      rw [compare_gt_iff_gt.2 h]
      exact ⟨by linarith, by linarith⟩

/-- Shifting out a bit halves the number. -/
theorem stands_shiftRightOne {em : ExtendedMantissa} {x : ℚ} (h : Stands em.mantissa x em.accuracy) :
    Stands em.shiftRightOne.mantissa (x / 2) em.shiftRightOne.accuracy := by
  obtain ⟨m, roundBit, stickyBit⟩ := em
  have hm : (m : ℚ) = 2 * (m / 2 : Nat) + (m % 2 : Nat) := by exact_mod_cast (Nat.div_add_mod m 2).symm
  simp only [ExtendedMantissa.shiftRightOne] at h ⊢
  generalize m / 2 = q at hm ⊢
  rcases Nat.mod_two_eq_zero_or_one m with hr | hr <;> rw [hr] at hm ⊢ <;>
    rcases roundBit with _ | _ <;> rcases stickyBit with _ | _ <;>
    simp [ExtendedMantissa.accuracy, Stands] at h hm ⊢ <;> first | linarith | (constructor <;> linarith)

/-- A mantissa shifted right still stands for its number, divided by the power of two. -/
theorem stands_shift {em : ExtendedMantissa} {x : ℚ} (h : Stands em.mantissa x em.accuracy) (k : Nat) :
    Stands (em >>> k).mantissa (x / 2 ^ k) (em >>> k).accuracy := by
  show Stands (k.repeat ExtendedMantissa.shiftRightOne em).mantissa _ (k.repeat ExtendedMantissa.shiftRightOne em).accuracy
  induction k with
  | zero => simpa [Nat.repeat] using h
  | succ k ih =>
    rw [pow_succ, ← div_div]
    exact stands_shiftRightOne ih

/-- What a mantissa stands for, at the place of its last bit. -/
theorem Stands.scaled {m : Nat} {e : Int} {x : ℚ} {acc : Accuracy} (h : Stands m (x / 2 ^ e) acc) :
    m * 2 ^ e ≤ x ∧ x < (m + 1) * 2 ^ e :=
  have hpos : (0 : ℚ) < 2 ^ e := zpow_pos two_pos e
  ⟨(le_div_iff₀ hpos).1 h.bounds.1, (div_lt_iff₀ hpos).1 h.bounds.2⟩

theorem accuracy_ofMantissaAndAccuracy (m : Nat) (acc : Accuracy) :
    (ExtendedMantissa.ofMantissaAndAccuracy m acc).accuracy = acc := by
  rcases acc with _ | (_ | _ | _) <;> rfl

/-! ## Rounding -/

/-- The number that an unpacked one is; zero for what is not finite. -/
def value : UnpackedFloat → ℚ
  | .finite .positive m e _ => m * 2 ^ e
  | .finite .negative m e _ => -(m * 2 ^ e)
  | _ => 0

@[simp] theorem value_finite {m : Nat} {e : Int} {hm : 0 < m} : value (.finite .positive m e hm) = m * 2 ^ e := rfl

theorem two_zpow_add (k : Nat) (e : Int) : (2 : ℚ) ^ (k + e) = 2 ^ k * 2 ^ e := by rw [zpow_add₀ two_ne_zero, zpow_natCast]

theorem bounds_of_mantissa {m : Nat} (h : m.log2 = 52) (e : Int) :
    (2 : ℚ) ^ 52 * 2 ^ e ≤ m * 2 ^ e ∧ (m : ℚ) * 2 ^ e < 2 ^ 53 * 2 ^ e := by
  obtain ⟨hlo, hhi⟩ := bounds_of_log2 h
  constructor
  · gcongr
    exact_mod_cast hlo
  · gcongr
    exact_mod_cast hhi

/-- A number is an exact one rounded to 53 bits, ties to even. -/
def Rounded (x : ℚ) (u : UnpackedFloat) : Prop :=
  ∃ (m : Nat) (e : Int) (acc : Accuracy),
    m.log2 = 52 ∧ Stands m (x / 2 ^ e) acc ∧ value u = acc.roundToNearestEven m * 2 ^ e

/-- Shifting away the bit that rounding may have added keeps the number. -/
theorem shift_value {n : Nat} (hlo : 52 ≤ n.log2) (hle : n ≤ 2 ^ 53) (e : Int) :
    ((n / 2 ^ (n.log2 - 52) : Nat) : ℚ) * 2 ^ (e + (n.log2 - 52)) = n * 2 ^ e := by
  rcases hle.lt_or_eq with hlt | rfl
  · have hne : n ≠ 0 := by
      rintro rfl
      exact absurd hlo (by decide)
    have hlog : n.log2 = 52 := Nat.le_antisymm (Nat.le_of_lt_succ ((Nat.log2_lt hne).2 hlt)) hlo
    simp [hlog]
  · have hlog : (2 ^ 53).log2 = 53 := Nat.log2_two_pow
    have hhalf : 2 ^ 53 / 2 ^ (53 - 52) = 2 ^ 52 := by decide
    rw [hlog, hhalf, zpow_add₀ two_ne_zero]
    push_cast
    ring

/-- The result of rounding is the exact value rounded. -/
theorem rounded_round {m : Nat} {e : Int} {acc : Accuracy} {x : ℚ} (hm : 52 ≤ m.log2) (he : -1074 ≤ e + (m.log2 - 52))
    (h : Stands m (x / 2 ^ e) acc) : Rounded x (roundWithAccuracy Format.binary64 .positive m e acc) := by
  have hlog := log2_shift_target hm acc
  have hunshifted : Stands (ExtendedMantissa.ofMantissaAndAccuracy m acc).mantissa (x / 2 ^ e)
      (ExtendedMantissa.ofMantissaAndAccuracy m acc).accuracy := by
    rwa [mantissa_ofMantissaAndAccuracy, accuracy_ofMantissaAndAccuracy]
  have hstands := stands_shift hunshifted (m.log2 - 52)
  have hplace : (2 : ℚ) ^ (e + (m.log2 - 52)) = 2 ^ e * 2 ^ (m.log2 - 52) := by
    rw [mul_comm, ← two_zpow_add, Nat.cast_sub hm, add_comm]
    rfl
  rw [div_div, ← hplace] at hstands
  refine ⟨_, _, _, hlog, hstands, ?_⟩
  obtain ⟨hpos, hround⟩ := exists_roundWithAccuracy hm he acc
  obtain ⟨hlo, -⟩ := log2_rounded hlog
  obtain ⟨-, hlt⟩ := bounds_of_log2 hlog
  rw [hround]
  exact shift_value hlo ((roundToNearestEven_bounds _ _).2.trans hlt) _

/-- Of two mantissas of 53 bits, the one of the greater number does not stand at the smaller exponent. -/
theorem exponent_le {e e' : Int} {x : ℚ} (hlo : 2 ^ 52 * 2 ^ e ≤ x) (hhi : x < 2 ^ 53 * 2 ^ e') : e ≤ e' := by
  have hlt : (2 : ℚ) ^ (52 + e) < 2 ^ (53 + e') :=
    calc (2 : ℚ) ^ (52 + e) = 2 ^ 52 * 2 ^ e := two_zpow_add 52 e
      _ ≤ x := hlo
      _ < 2 ^ 53 * 2 ^ e' := hhi
      _ = 2 ^ (53 + e') := (two_zpow_add 53 e').symm
  have hlt := (zpow_lt_zpow_iff_right₀ one_lt_two).1 hlt
  omega

/-- A greater exact value has no smaller rounding. -/
theorem Rounded.mono {x y : ℚ} {u v : UnpackedFloat} (hu : Rounded x u) (hv : Rounded y v) (hle : x ≤ y) : value u ≤ value v := by
  obtain ⟨m, e, acc, hlog, hx, hu⟩ := hu
  obtain ⟨m', e', acc', hlog', hy, hv⟩ := hv
  obtain ⟨-, hhi⟩ := bounds_of_log2 hlog
  obtain ⟨hlo', hhi'⟩ := bounds_of_log2 hlog'
  have he : e ≤ e' := by
    refine exponent_le (((bounds_of_mantissa hlog e).1.trans hx.scaled.1).trans hle) ?_
    calc y < (m' + 1) * 2 ^ e' := hy.scaled.2
      _ ≤ 2 ^ 53 * 2 ^ e' := by gcongr; exact_mod_cast hhi'
  rw [hu, hv]
  rcases he.lt_or_eq with hlt | rfl
  · calc ((acc.roundToNearestEven m : Nat) : ℚ) * 2 ^ e ≤ 2 ^ 53 * 2 ^ e := by
          gcongr
          exact_mod_cast (roundToNearestEven_bounds m acc).2.trans hhi
      _ = 2 ^ (53 + e) := (two_zpow_add 53 e).symm
      _ ≤ 2 ^ (52 + e') := zpow_le_zpow_right₀ one_le_two (by omega)
      _ = 2 ^ 52 * 2 ^ e' := two_zpow_add 52 e'
      _ ≤ (acc'.roundToNearestEven m' : Nat) * 2 ^ e' := by
          gcongr
          exact_mod_cast hlo'.trans (roundToNearestEven_bounds m' acc').1
  · gcongr
    exact hx.rounded_le hy (by gcongr)

/-- What is rounded is off by one part in `2 ^ 53` at most. -/
theorem Rounded.error {x : ℚ} {u : UnpackedFloat} (h : Rounded x u) : |value u - x| * 2 ^ 53 ≤ x := by
  obtain ⟨m, e, acc, hlog, hx, hu⟩ := h
  have hpos : (0 : ℚ) < 2 ^ e := zpow_pos two_pos e
  have hoff : value u - x = ((acc.roundToNearestEven m : Nat) - x / 2 ^ e) * 2 ^ e := by
    rw [hu, sub_mul, div_mul_cancel₀ _ hpos.ne']
  calc |value u - x| * 2 ^ 53 = |(acc.roundToNearestEven m : Nat) - x / 2 ^ e| * (2 ^ 53 * 2 ^ e) := by
        rw [hoff, abs_mul, abs_of_pos hpos]
        ring
    _ ≤ 1 / 2 * (2 ^ 53 * 2 ^ e) := by gcongr; exact hx.rounded_error
    _ = 2 ^ 52 * 2 ^ e := by ring
    _ ≤ m * 2 ^ e := (bounds_of_mantissa hlog e).1
    _ ≤ x := hx.scaled.1

/-- A natural number of 53 bits is kept. -/
theorem Rounded.exact {n : Nat} {u : UnpackedFloat} (h : Rounded n u) (hn : n < 2 ^ 53) : value u = n := by
  obtain ⟨m, e, acc, hlog, hx, hu⟩ := h
  have hpos : (0 : ℚ) < 2 ^ e := zpow_pos two_pos e
  have he : e ≤ 0 := by
    refine exponent_le ((bounds_of_mantissa hlog e).1.trans hx.scaled.1) ?_
    rw [zpow_zero, mul_one]
    exact_mod_cast hn
  obtain ⟨k, hk⟩ := Int.eq_ofNat_of_zero_le (Int.neg_nonneg.2 he)
  obtain rfl : e = -(k : Int) := by omega
  have hscaled : (n : ℚ) / 2 ^ (-(k : Int)) = (n * 2 ^ k : Nat) := by
    rw [zpow_neg, div_inv_eq_mul, zpow_natCast]
    push_cast
    rfl
  rw [hscaled] at hx
  rw [hu, hx.rounded_natCast, ← hscaled, div_mul_cancel₀ _ hpos.ne']

/-! ## Arithmetic -/

section Arithmetic

variable {lo hi lo' hi' : Int} {u v : UnpackedFloat} (hu : Normal lo hi u) (hv : Normal lo' hi' v)

include hu hv

/-- Normal numbers stand in the order of their values. -/
theorem Normal.rank_le (hle : value u ≤ value v) :
    ∃ r s, Rank.ofUnpacked? u = some r ∧ Rank.ofUnpacked? v = some s ∧ r ≤ s := by
  obtain ⟨m, e, hm, rfl, hlog, -⟩ := hu
  obtain ⟨m', e', hm', rfl, hlog', -⟩ := hv
  have he : e ≤ e' := exponent_le ((bounds_of_mantissa hlog e).1.trans hle) (bounds_of_mantissa hlog' e').2
  refine ⟨_, _, rfl, rfl, Prod.Lex.toLex_le_toLex.2 (Or.inr ⟨rfl, Prod.Lex.toLex_le_toLex.2 ?_⟩)⟩
  rcases he.lt_or_eq with hlt | rfl
  · exact Or.inl hlt
  · have hle : (m : ℚ) ≤ m' := le_of_mul_le_mul_right hle (zpow_pos two_pos e)
    exact Or.inr ⟨rfl, Int.ofNat_le.2 (by exact_mod_cast hle)⟩

/-- A smaller normal number has a lower rank. -/
theorem Normal.rank_lt (hlt : value u < value v) :
    ∃ r s, Rank.ofUnpacked? u = some r ∧ Rank.ofUnpacked? v = some s ∧ r < s := by
  obtain ⟨r, s, hr, hs, hrs⟩ := hu.rank_le hv hlt.le
  refine ⟨r, s, hr, hs, hrs.lt_of_ne fun heq => hlt.ne ?_⟩
  obtain ⟨m, e, hm, rfl, -⟩ := hu
  obtain ⟨m', e', hm', rfl, -⟩ := hv
  have hsame : (some (toLex (1, toLex (e, (m : Int)))) : Option Rank) = some (toLex (1, toLex (e', (m' : Int)))) :=
    hr.trans (heq ▸ hs.symm)
  simp only [Option.some.injEq, EmbeddingLike.apply_eq_iff_eq, Prod.mk.injEq, Nat.cast_inj, true_and] at hsame
  obtain ⟨rfl, rfl⟩ := hsame
  rfl

/-- A product of normal numbers is the exact one rounded, if its exponent is not too low. -/
theorem Normal.rounded_mul (hmin : -1126 ≤ lo + lo') : Rounded (value u * value v) (UnpackedFloat.mul Format.binary64 u v) := by
  obtain ⟨m, e, hm, rfl, hlog, hle, hge⟩ := hu
  obtain ⟨m', e', hm', rfl, hlog', hle', hge'⟩ := hv
  obtain ⟨hlo, hhi⟩ := log2_mul hlog hlog'
  refine rounded_round (by omega) (by omega) ?_
  show (m * 2 ^ e) * (m' * 2 ^ e') / 2 ^ (e + e') = ((m * m' : Nat) : ℚ)
  rw [zpow_add₀ two_ne_zero]
  push_cast
  field_simp

/-- A quotient of normal numbers is the exact one rounded, if its exponent is not too low. -/
theorem Normal.rounded_div (hmin : -1021 ≤ lo - hi') : Rounded (value u / value v) (UnpackedFloat.div Format.binary64 u v) := by
  obtain ⟨m, e, hm, rfl, hlog, hle, hge⟩ := hu
  obtain ⟨m', e', hm', rfl, hlog', hle', hge'⟩ := hv
  obtain ⟨hlo, hhi⟩ := log2_div hlog hlog'
  have hstands := stands_div (m * 2 ^ 53) hm'
  have hpos : (0 : ℚ) < m' := by exact_mod_cast hm'
  have hquotient : ((m * 2 ^ 53 : Nat) : ℚ) / m' = m * 2 ^ e / (m' * 2 ^ e') / 2 ^ (e - e' - 53) := by
    rw [zpow_sub₀ two_ne_zero, zpow_sub₀ two_ne_zero]
    push_cast
    field_simp
  rw [hquotient] at hstands
  rw [div_finite hlog hlog' (by omega), value_finite, value_finite]
  exact rounded_round hlo (by omega) hstands

end Arithmetic

section Floats

variable {lo hi lo' hi' : Int} {x y : Float} (hx : Normal lo hi x.toModel.unpack) (hy : Normal lo' hi' y.toModel.unpack)

include hx hy

/-- Doubles are ordered as the numbers that they are. -/
theorem le_of_value (hle : value x.toModel.unpack ≤ value y.toModel.unpack) : x ≤ y := Rank.le_iff.2 (hx.rank_le hy hle)

theorem lt_of_value (hlt : value x.toModel.unpack < value y.toModel.unpack) : x < y := Rank.lt_iff.2 (hx.rank_lt hy hlt)

/-- The product of two numbers is their exact product rounded. -/
theorem rounded_mul (hmin : -1074 ≤ lo + lo') (hmax : hi + hi' ≤ 916) :
    Normal (lo + lo' + 52) (hi + hi' + 54) (x * y).toModel.unpack ∧
      Rounded (value x.toModel.unpack * value y.toModel.unpack) (x * y).toModel.unpack := by
  have hproduct := hx.mul hy (by omega)
  rw [unpack_mul, hproduct.unpack_pack (by omega) (by omega)]
  exact ⟨hproduct, hx.rounded_mul hy (by omega)⟩

/-- The quotient of two numbers is their exact quotient rounded. -/
theorem rounded_div (hmin : -1021 ≤ lo - hi') (hmax : hi - lo' ≤ 1021) :
    Normal (lo - hi' - 53) (hi - lo' - 51) (x / y).toModel.unpack ∧
      Rounded (value x.toModel.unpack / value y.toModel.unpack) (x / y).toModel.unpack := by
  have hquotient := hx.div hy hmin
  rw [unpack_div, hquotient.unpack_pack (by omega) (by omega)]
  exact ⟨hquotient, hx.rounded_div hy hmin⟩

end Floats

/-- A natural number of at most 53 bits is itself as a double. -/
theorem rounded_ofNat {n : Nat} (h0 : 0 < n) (h : n < 2 ^ 53) : Rounded n (UnpackedFloat.ofNat Format.binary64 n) := by
  have hlog : n.log2 < 53 := (Nat.log2_lt h0.ne').2 h
  have hshifted := log2_shiftLeft h0.ne' (52 - n.log2)
  rw [ofNat_eq h0 (h.trans (by decide))]
  refine rounded_round (by omega) (by omega) ?_
  show (n : ℚ) / 2 ^ (0 - (52 - n.log2 : Nat) : Int) = (n <<< (52 - n.log2) : Nat)
  rw [zero_sub, zpow_neg, div_inv_eq_mul, zpow_natCast, Nat.shiftLeft_eq]
  push_cast
  rfl

/-- The number of a count is the count. -/
theorem value_natCast {n : Nat} (h0 : 0 < n) (h : n < 2 ^ 53) : value (Float.ofNat n).toModel.unpack = n := by
  have hlarge : n < 2 ^ 64 := h.trans (by decide)
  have hword : Normal (-52) 13 n.toUInt64.toFloat.toModel.unpack := unpack_toFloat h0 hlarge ▸ normal_ofNat h0 hlarge
  have hone : value (Float.exactlyRepresentablePowersOfTen[0]).toModel.unpack = 1 := by
    obtain ⟨hpos, hfinite⟩ : ∃ h, (Float.exactlyRepresentablePowersOfTen[0]).toModel.unpack =
        .finite .positive (2 ^ 52) (-52) h := ⟨by decide, rfl⟩
    rw [hfinite, value_finite]
    norm_num
  obtain ⟨-, hproduct⟩ := rounded_mul hword normal_one (by decide) (by decide)
  rw [unpack_toFloat h0 hlarge, (rounded_ofNat h0 h).exact h, hone, mul_one, ← natCast_eq h] at hproduct
  exact hproduct.exact h

end FirstMatch.Binary64
