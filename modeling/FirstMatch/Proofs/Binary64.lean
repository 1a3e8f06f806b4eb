import FirstMatch.Proofs.Value

/-!
# Signs and sizes of binary64 numbers

What is made of numbers without a minus sign by adding, multiplying and dividing by a normal number has none either, however the
operations round (`Unsigned`). A count of one or more in a machine word is a normal number with an exponent near zero (`Normal`), and
so are products of such numbers.
-/

namespace FirstMatch.Binary64

open Float.Model Float.Model.UnpackedFloat

/-! ## Numbers without a minus sign -/

/-- A number without a minus sign: zero, finite or infinite. -/
inductive Unsigned : UnpackedFloat → Prop where
  | zero : Unsigned (.zero .positive)
  | finite (m : Nat) (e : Int) (hm : 0 < m) : Unsigned (.finite .positive m e hm)
  | infinity : Unsigned (.infinity .positive)

/-- What is rounded with a plus sign has no minus sign. -/
theorem unsigned_round (spec : Format) (m : Nat) (e : Int) (acc : Accuracy) :
    Unsigned (roundWithAccuracy spec .positive m e acc) := by
  unfold roundWithAccuracy
  dsimp only
  split
  · exact .zero
  · exact .finite _ _ _

/-- A number put together has the sign it was put together with. -/
theorem unpackSign_packComponents {spec : Format} (s : Sign) (e : BitVec spec.exponentBits)
    (m : BitVec spec.mantissaBitsWithoutImplicit) : unpackSign (packComponents spec s e m) = s.toBitVec := by
  apply BitVec.eq_of_getLsbD_eq
  intro i hi
  obtain rfl : i = 0 := by omega
  simp [unpackSign, packComponents, BitVec.getLsbD_append, BitVec.getElem_append]

/-- A number put together with a plus sign has no minus sign when it is taken apart, unless it is not a number. -/
theorem unpack_packComponents {spec : Format} {s : Sign} {e : BitVec spec.exponentBits}
    {m : BitVec spec.mantissaBitsWithoutImplicit} (hs : s = .positive) (he : e ≠ -1#_ ∨ m = 0#_) :
    Unsigned (UnpackedFloat.unpack spec (packComponents spec s e m)) := by
  subst hs
  have hsign : Sign.ofBitVec (Sign.toBitVec .positive) = .positive := rfl
  unfold UnpackedFloat.unpack
  simp only [unpackExponent_packComponents, unpackMantissa_packComponents, unpackSign_packComponents, hsign]
  split
  · next h =>
    rw [if_pos (he.resolve_left (not_not_intro h))]
    exact .infinity
  · split
    · split
      · exact .zero
      · exact .finite _ _ _
    · exact .finite _ _ _

/-- Packing a number and taking it apart again leaves it without a minus sign. -/
theorem Unsigned.unpack_pack {u : UnpackedFloat} (h : Unsigned u) : Unsigned (Float.Model.pack u).unpack := by
  show Unsigned (UnpackedFloat.unpack Format.binary64 (UnpackedFloat.pack Format.binary64 u))
  cases h with
  | zero => exact unpack_packComponents rfl (Or.inr rfl)
  | infinity => exact unpack_packComponents rfl (Or.inr rfl)
  | finite m e hm =>
    unfold UnpackedFloat.pack
    dsimp only
    split
    · exact unpack_packComponents rfl (Or.inr rfl)
    · next hfits =>
      split
      · refine unpack_packComponents rfl (Or.inl fun h => hfits ?_)
        have hbits := congrArg BitVec.toNat h
        rw [BitVec.toNat_ofNat] at hbits
        exact Nat.le_trans (by decide) (Nat.succ_le_succ (Nat.le_trans (Nat.le_of_eq hbits.symm) (Nat.mod_le _ _)))
      · exact unpack_packComponents rfl (Or.inl (by decide))

/-- A number without a minus sign stands no lower than zero. -/
theorem Unsigned.rank {u : UnpackedFloat} (h : Unsigned u) :
    ∃ r, Rank.ofUnpacked? u = some r ∧ toLex (0, toLex (0, 0)) ≤ r := by
  cases h with
  | zero => exact ⟨_, rfl, le_rfl⟩
  | finite => exact ⟨_, rfl, Prod.Lex.toLex_le_toLex.2 (Or.inl (show (0 : Int) < 1 by decide))⟩
  | infinity => exact ⟨_, rfl, Prod.Lex.toLex_le_toLex.2 (Or.inl (show (0 : Int) < 2 by decide))⟩

/-! ## Normal numbers -/

theorem mantissa_shift (em : ExtendedMantissa) (k : Nat) : (em >>> k).mantissa = em.mantissa / 2 ^ k := by
  show (k.repeat ExtendedMantissa.shiftRightOne em).mantissa = _
  induction k with
  | zero => simp [Nat.repeat]
  | succ k ih =>
    rw [Nat.repeat, ExtendedMantissa.shiftRightOne, ih, Nat.div_div_eq_div_mul, Nat.pow_succ]

theorem mantissa_ofMantissaAndAccuracy (m : Nat) (acc : Accuracy) :
    (ExtendedMantissa.ofMantissaAndAccuracy m acc).mantissa = m := by
  rcases acc with _ | (_ | _ | _) <;> rfl

/-- Rounding adds one at most. -/
theorem roundToNearestEven_bounds (m : Nat) (acc : Accuracy) :
    m ≤ acc.roundToNearestEven m ∧ acc.roundToNearestEven m ≤ m + 1 := by
  rcases acc with _ | (_ | _ | _) <;> simp [Accuracy.roundToNearestEven]
  omega

/-- A number keeps 53 bits, or fewer where its exponent would be too low. -/
theorem targetExponent_eq (t : Int) : Format.binary64.targetExponent t = max (t - 53) (-1074) := rfl

/-- Shifting a mantissa of 53 bits or more to its target leaves 53 bits. -/
theorem shift_target {m : Nat} {e : Int} (hm : 52 ≤ m.log2) (he : -1074 ≤ e + (m.log2 - 52)) (acc : Accuracy) :
    shiftToTargetExponent Format.binary64 m e acc =
      (ExtendedMantissa.ofMantissaAndAccuracy m acc >>> (m.log2 - 52), e + (m.log2 - 52)) := by
  have hamount : (Format.binary64.targetExponent (totalExponent m e) - e).toNat = m.log2 - 52 := by
    rw [targetExponent_eq, totalExponent]
    omega
  have hexponent : e + ((m.log2 - 52 : Nat) : Int) = e + (m.log2 - 52) := by omega
  simp only [shiftToTargetExponent, shiftToExponent, hamount, hexponent]

/-- A positive number whose mantissa has 53 bits, with an exponent between bounds. -/
def Normal (lo hi : Int) (u : UnpackedFloat) : Prop :=
  ∃ m e hm, u = .finite .positive m e hm ∧ m.log2 = 52 ∧ lo ≤ e ∧ e ≤ hi

theorem log2_div_pow (m k : Nat) : (m / 2 ^ k).log2 = m.log2 - k := by
  rw [Nat.log2_eq_log_two, Nat.log2_eq_log_two, Nat.log_div_base_pow]

theorem ne_zero_of_log2 {m : Nat} (h : m.log2 = 52) : m ≠ 0 := by
  rintro rfl
  cases h

/-- The mantissas of 53 bits. -/
theorem bounds_of_log2 {m : Nat} (h : m.log2 = 52) : 2 ^ 52 ≤ m ∧ m < 2 ^ 53 :=
  (Nat.log2_eq_iff (ne_zero_of_log2 h)).1 h

/-- Rounding a mantissa of 53 bits adds a bit at most. -/
theorem log2_rounded {em : ExtendedMantissa} (h : em.mantissa.log2 = 52) :
    52 ≤ em.roundedMantissa.log2 ∧ em.roundedMantissa.log2 ≤ 53 := by
  obtain ⟨hle, hge⟩ := roundToNearestEven_bounds em.mantissa em.accuracy
  obtain ⟨hlo, hhi⟩ := bounds_of_log2 h
  have hne : em.roundedMantissa ≠ 0 := ((by decide : 0 < 2 ^ 52).trans_le (hlo.trans hle)).ne'
  have hlt : em.roundedMantissa < 2 ^ 54 := (hge.trans hhi).trans_lt (by decide)
  exact ⟨(Nat.le_log2 hne).2 (hlo.trans hle), Nat.le_of_lt_succ ((Nat.log2_lt hne).2 hlt)⟩

/-- A mantissa of 53 bits or more has 53 after the shift to its target. -/
theorem log2_shift_target {m : Nat} (hm : 52 ≤ m.log2) (acc : Accuracy) :
    (ExtendedMantissa.ofMantissaAndAccuracy m acc >>> (m.log2 - 52)).mantissa.log2 = 52 := by
  rw [mantissa_shift, mantissa_ofMantissaAndAccuracy, log2_div_pow]
  omega

/-- Rounding a mantissa of 53 bits or more: shift it to its target, round it, and shift away the bit that rounding may have added. -/
theorem exists_roundWithAccuracy {m : Nat} {e : Int} (hm : 52 ≤ m.log2) (he : -1074 ≤ e + (m.log2 - 52)) (acc : Accuracy) :
    let n := (ExtendedMantissa.ofMantissaAndAccuracy m acc >>> (m.log2 - 52)).roundedMantissa
    ∃ h, roundWithAccuracy Format.binary64 .positive m e acc =
      .finite .positive (n / 2 ^ (n.log2 - 52)) (e + (m.log2 - 52) + (n.log2 - 52)) h := by
  obtain ⟨hlo, hhi⟩ := log2_rounded (log2_shift_target hm acc)
  have hlog := log2_shift_target hlo .exact
  have hne := ne_zero_of_log2 hlog
  unfold roundWithAccuracy
  rw [shift_target hm he]
  dsimp only
  rw [shift_target hlo (by omega), dif_neg hne]
  simp only [mantissa_shift, mantissa_ofMantissaAndAccuracy]
  rw [mantissa_shift, mantissa_ofMantissaAndAccuracy] at hne
  exact ⟨Nat.pos_of_ne_zero hne, trivial⟩

/-- Rounding a mantissa of 53 bits or more makes a normal number. -/
theorem normal_round {m : Nat} {e : Int} (hm : 52 ≤ m.log2) (he : -1074 ≤ e + (m.log2 - 52)) (acc : Accuracy) :
    Normal (e + (m.log2 - 52)) (e + (m.log2 - 51)) (roundWithAccuracy Format.binary64 .positive m e acc) := by
  obtain ⟨hlo, hhi⟩ := log2_rounded (log2_shift_target hm acc)
  obtain ⟨hpos, hround⟩ := exists_roundWithAccuracy hm he acc
  refine ⟨_, _, hpos, hround, ?_, by omega, by omega⟩
  rw [log2_div_pow]
  omega

/-- A mantissa of 53 bits is kept by its lower 52 bits. -/
theorem toNat_implicit {m : Nat} (hlog : m.log2 = 52) : (1#1 ++ BitVec.ofNat 52 m).toNat = m := by
  obtain ⟨hlo, hhi⟩ := bounds_of_log2 hlog
  rw [BitVec.toNat_append, ← Nat.shiftLeft_add_eq_or_of_lt (BitVec.isLt _), BitVec.toNat_ofNat, Nat.shiftLeft_eq]
  show 1 * 2 ^ 52 + m % 2 ^ 52 = m
  omega

/-- Packing a normal number and taking it apart again gives it back. -/
theorem Normal.unpack_pack {lo hi : Int} {u : UnpackedFloat} (h : Normal lo hi u) (hlo : -1074 ≤ lo) (hhi : hi ≤ 970) :
    (Float.Model.pack u).unpack = u := by
  obtain ⟨m, e, hm, rfl, hlog, hle, hge⟩ := h
  show UnpackedFloat.unpack Format.binary64 (UnpackedFloat.pack Format.binary64 _) = _
  obtain ⟨b, hb, hpos, hlt⟩ : ∃ b : Nat, e + 1075 = b ∧ 1 ≤ b ∧ b < 2047 := ⟨(e + 1075).toNat, by omega⟩
  have hbiased : (e + Format.binary64.exponentBias + Format.binary64.mantissaBitsWithoutImplicit).toNat = b := by
    show (e + 1023 + 52).toNat = b
    omega
  have hbits : (BitVec.ofNat Format.binary64.exponentBits b).toNat = b := by
    rw [BitVec.toNat_ofNat]
    exact Nat.mod_eq_of_lt (by show b < 2 ^ 11; omega)
  have hne : BitVec.ofNat Format.binary64.exponentBits b ≠ -1#_ := fun h => by
    have h := hbits.symm.trans (congrArg BitVec.toNat h)
    exact absurd (show b = 2047 from h) (by omega)
  have hne' : BitVec.ofNat Format.binary64.exponentBits b ≠ 0#_ := fun h => by
    have h := hbits.symm.trans (congrArg BitVec.toNat h)
    exact absurd (show b = 0 from h) (by omega)
  have hfits : ¬2 ^ Format.binary64.exponentBits ≤ b + 1 := by
    show ¬2 ^ 11 ≤ b + 1
    omega
  have hfull : m.log2 + 1 = Format.binary64.mantissaBits := by
    rw [hlog]
    rfl
  unfold UnpackedFloat.pack
  simp only [hbiased, if_neg hfits, if_pos hfull]
  unfold UnpackedFloat.unpack
  simp only [unpackMantissa_packComponents, unpackExponent_packComponents, unpackSign_packComponents, if_neg hne, if_neg hne', hbits]
  have hmantissa : (1#1 ++ BitVec.ofNat Format.binary64.mantissaBitsWithoutImplicit m).toNat = m := toNat_implicit hlog
  have hexponent : (b : Int) - (Format.binary64.exponentBias + Format.binary64.mantissaBitsWithoutImplicit : Nat) = e := by
    show (b : Int) - 1075 = e
    omega
  congr 1

/-! ## Arithmetic -/

/-- Bounds on an exponent may be widened. -/
theorem Normal.mono {lo hi lo' hi' : Int} {u : UnpackedFloat} (h : Normal lo hi u) (hlo : lo' ≤ lo) (hhi : hi ≤ hi') :
    Normal lo' hi' u := by
  obtain ⟨m, e, hm, hu, hlog, hle, hge⟩ := h
  exact ⟨m, e, hm, hu, hlog, Int.le_trans hlo hle, Int.le_trans hge hhi⟩

/-- A normal number has no minus sign. -/
theorem Normal.unsigned {lo hi : Int} {u : UnpackedFloat} (h : Normal lo hi u) : Unsigned u := by
  obtain ⟨m, e, hm, rfl, -⟩ := h
  exact .finite m e hm

/-- The product of two mantissas of 53 bits has 105 bits or 106. -/
theorem log2_mul {m m' : Nat} (h : m.log2 = 52) (h' : m'.log2 = 52) : 52 + 52 ≤ (m * m').log2 ∧ (m * m').log2 < 53 + 53 := by
  obtain ⟨hlo, hhi⟩ := bounds_of_log2 h
  obtain ⟨hlo', hhi'⟩ := bounds_of_log2 h'
  have hne : m * m' ≠ 0 := Nat.mul_ne_zero (ne_zero_of_log2 h) (ne_zero_of_log2 h')
  constructor
  · rw [Nat.le_log2 hne, Nat.pow_add]
    exact Nat.mul_le_mul hlo hlo'
  · rw [Nat.log2_lt hne, Nat.pow_add]
    exact Nat.mul_lt_mul_of_lt_of_lt hhi hhi'

/-- A product of normal numbers is normal. -/
theorem Normal.mul {lo hi lo' hi' : Int} {u v : UnpackedFloat} (hu : Normal lo hi u) (hv : Normal lo' hi' v)
    (hmin : -1126 ≤ lo + lo') : Normal (lo + lo' + 52) (hi + hi' + 54) (UnpackedFloat.mul Format.binary64 u v) := by
  obtain ⟨m, e, hm, rfl, hlog, hle, hge⟩ := hu
  obtain ⟨m', e', hm', rfl, hlog', hle', hge'⟩ := hv
  obtain ⟨hlo, hhi⟩ := log2_mul hlog hlog'
  exact (normal_round (by omega) (by omega) .exact).mono (by omega) (by omega)

/-- A mantissa of 53 bits moved up by as many and divided by another leaves 53 bits or 54. -/
theorem log2_div {m m' : Nat} (h : m.log2 = 52) (h' : m'.log2 = 52) :
    52 ≤ (m * 2 ^ 53 / m').log2 ∧ (m * 2 ^ 53 / m').log2 ≤ 53 := by
  obtain ⟨hlo, hhi⟩ := bounds_of_log2 h
  obtain ⟨hlo', hhi'⟩ := bounds_of_log2 h'
  have hpos : 0 < m' := Nat.pos_of_ne_zero (ne_zero_of_log2 h')
  have hle : 2 ^ 52 ≤ m * 2 ^ 53 / m' := by
    rw [Nat.le_div_iff_mul_le hpos]
    exact Nat.mul_le_mul hlo hhi'.le
  have hlt : m * 2 ^ 53 / m' < 2 ^ 54 := by
    rw [Nat.div_lt_iff_lt_mul hpos]
    calc m * 2 ^ 53 < 2 ^ 53 * 2 ^ 53 := Nat.mul_lt_mul_of_pos_right hhi (by decide)
      _ = 2 ^ 54 * 2 ^ 52 := by decide
      _ ≤ 2 ^ 54 * m' := Nat.mul_le_mul_left _ hlo'
  have hne : m * 2 ^ 53 / m' ≠ 0 := ((by decide : 0 < 2 ^ 52).trans_le hle).ne'
  exact ⟨(Nat.le_log2 hne).2 hle, Nat.le_of_lt_succ ((Nat.log2_lt hne).2 hlt)⟩

/-- The quotient of two normal numbers, before it is rounded. -/
theorem div_finite {m m' : Nat} {e e' : Int} {hm : 0 < m} {hm' : 0 < m'} (h : m.log2 = 52) (h' : m'.log2 = 52)
    (hmin : -1021 ≤ e - e') : UnpackedFloat.div Format.binary64 (.finite .positive m e hm) (.finite .positive m' e' hm') =
      roundWithAccuracy Format.binary64 .positive (m * 2 ^ 53 / m') (e - e' - 53)
        (accuracyOfFraction (m * 2 ^ 53 % m') m') := by
  have htarget : min (e - e') (Format.binary64.targetExponent (totalExponent m e - totalExponent m' e')) = e - e' - 53 := by
    rw [targetExponent_eq, totalExponent, totalExponent]
    omega
  have hshift : (e - e' - (e - e' - 53)).toNat = 53 := by omega
  simp only [UnpackedFloat.div, divCore, htarget, hshift, Nat.shiftLeft_eq]
  rfl

/-- A quotient of normal numbers is normal. -/
theorem Normal.div {lo hi lo' hi' : Int} {u v : UnpackedFloat} (hu : Normal lo hi u) (hv : Normal lo' hi' v)
    (hmin : -1021 ≤ lo - hi') : Normal (lo - hi' - 53) (hi - lo' - 51) (UnpackedFloat.div Format.binary64 u v) := by
  obtain ⟨m, e, hm, rfl, hlog, hle, hge⟩ := hu
  obtain ⟨m', e', hm', rfl, hlog', hle', hge'⟩ := hv
  obtain ⟨hlo, hhi⟩ := log2_div hlog hlog'
  rw [div_finite hlog hlog' (by omega)]
  exact (normal_round hlo (by omega) _).mono (by omega) (by omega)

/-- A product with a normal number has no minus sign if the other factor has none. -/
theorem Unsigned.mul {lo hi : Int} {u v : UnpackedFloat} (hu : Unsigned u) (hv : Normal lo hi v) :
    Unsigned (UnpackedFloat.mul Format.binary64 u v) := by
  obtain ⟨m, e, hm, rfl, -⟩ := hv
  cases hu with
  | zero => exact .zero
  | finite => exact unsigned_round _ _ _ _
  | infinity => exact .infinity

/-- A quotient by a normal number has no minus sign if the dividend has none. -/
theorem Unsigned.div {lo hi : Int} {u v : UnpackedFloat} (hu : Unsigned u) (hv : Normal lo hi v) :
    Unsigned (UnpackedFloat.div Format.binary64 u v) := by
  obtain ⟨m, e, hm, rfl, -⟩ := hv
  cases hu with
  | zero => exact .zero
  | finite => exact unsigned_round _ _ _ _
  | infinity => exact .infinity

/-- A mantissa normalized with a plus sign has no minus sign. -/
theorem unsigned_normalize (n : Nat) (e : Int) : Unsigned (UnpackedFloat.normalize Format.binary64 n e .positive) := by
  unfold UnpackedFloat.normalize
  rcases n.eq_zero_or_pos with rfl | h
  · exact .zero
  · rw [compare_gt_iff_gt.2 (by omega : (n : Int) > 0)]
    exact unsigned_round _ _ _ _

/-- Sums of numbers without a minus sign have none. -/
theorem Unsigned.add {u v : UnpackedFloat} (hu : Unsigned u) (hv : Unsigned v) :
    Unsigned (UnpackedFloat.add Format.binary64 u v) := by
  cases hu with
  | infinity => cases hv <;> exact .infinity
  | zero =>
    cases hv with
    | zero => exact .zero
    | finite m e hm => exact .finite m e hm
    | infinity => exact .infinity
  | finite m e hm =>
    cases hv with
    | zero => exact .finite m e hm
    | infinity => exact .infinity
    | finite m' e' hm' => exact unsigned_normalize (_ + _) _

theorem unpack_div (x y : Float) : (x / y).toModel.unpack =
    (Float.Model.pack (UnpackedFloat.div Format.binary64 x.toModel.unpack y.toModel.unpack)).unpack := rfl

theorem unpack_mul (x y : Float) : (x * y).toModel.unpack =
    (Float.Model.pack (UnpackedFloat.mul Format.binary64 x.toModel.unpack y.toModel.unpack)).unpack := rfl

/-! ## Counts -/

theorem log2_shiftLeft {n : Nat} (h : n ≠ 0) (k : Nat) : (n <<< k).log2 = n.log2 + k := by
  induction k with
  | zero => rfl
  | succ k ih =>
    rw [Nat.shiftLeft_succ, Nat.log2_two_mul, ih]
    · rfl
    · rwa [Ne, Nat.shiftLeft_eq_zero_iff]

/-- A count in the first 53 bits is a word, multiplied by the power of ten with exponent zero. -/
theorem natCast_eq {n : Nat} (h : n < 2 ^ 53) :
    Float.ofNat n = n.toUInt64.toFloat * Float.exactlyRepresentablePowersOfTen[0] := by
  show Float.ofScientific n false 0 = _
  unfold Float.ofScientific
  rw [dif_pos ⟨h, by decide⟩, if_neg Bool.false_ne_true]

theorem normal_one : Normal (-52) (-52) (Float.exactlyRepresentablePowersOfTen[0]).toModel.unpack :=
  ⟨2 ^ 52, -52, by decide, by rfl, by decide, by decide, by decide⟩

section Counts

variable {n : Nat} (h0 : 0 < n) (h : n < 2 ^ 64)

include h0 h

/-- A natural number is shifted to 53 bits and rounded as it stands. -/
theorem ofNat_eq : UnpackedFloat.ofNat Format.binary64 n =
    roundWithAccuracy Format.binary64 .positive (n <<< (52 - n.log2)) (0 - (52 - n.log2 : Nat)) .exact := by
  have hlog : n.log2 < 64 := (Nat.log2_lt h0.ne').2 h
  have hshift : (0 - Format.binary64.targetExponent (totalExponent n 0)).toNat = 52 - n.log2 := by
    rw [targetExponent_eq, totalExponent]
    omega
  unfold UnpackedFloat.ofNat UnpackedFloat.ofInt UnpackedFloat.normalize
  rw [compare_gt_iff_gt.2 (by omega : (n : Int) > 0)]
  simp only [Int.toNat_natCast, UnpackedFloat.round, decreaseExponent, hshift]

/-- A count of one or more in a machine word, rounded, is normal. -/
theorem normal_ofNat : Normal (-52) 13 (UnpackedFloat.ofNat Format.binary64 n) := by
  have hlog : n.log2 < 64 := (Nat.log2_lt h0.ne').2 h
  have hshifted := log2_shiftLeft h0.ne' (52 - n.log2)
  rw [ofNat_eq h0 h]
  exact (normal_round (by omega) (by omega) .exact).mono (by omega) (by omega)

/-- A machine word is converted as the natural number that it is. -/
theorem unpack_toFloat : n.toUInt64.toFloat.toModel.unpack = UnpackedFloat.ofNat Format.binary64 n := by
  show (Float.Model.pack (UnpackedFloat.ofNat Format.binary64 n.toUInt64.toNat)).unpack = _
  rw [show n.toUInt64.toNat = n from UInt64.toNat_ofNat_of_lt h, (normal_ofNat h0 h).unpack_pack (by decide) (by decide)]

/-- A natural number taken for a decimal without places is normal. -/
theorem normal_ofScientific : Normal (-52) 13 (UnpackedFloat.ofScientific Format.binary64 n 0) := by
  have hlog : n.log2 < 64 := (Nat.log2_lt h0.ne').2 h
  have hshifted := log2_shiftLeft h0.ne' 53
  have hround : UnpackedFloat.ofScientific Format.binary64 n 0 =
      roundWithAccuracy Format.binary64 .positive (n <<< 53 * 1) (-53) .exact := by
    have hsafe : (0 : Int) ≤ 2 ^ Format.binary64.exponentBits := by decide
    unfold UnpackedFloat.ofScientific
    rw [dif_neg h0.ne', if_neg (by decide), if_neg (by omega), if_pos (by decide)]
    rfl
  rw [hround, Nat.mul_one]
  exact (normal_round (by omega) (by omega) .exact).mono (by omega) (by omega)

/-- The number of a count of one or more is normal. -/
theorem normal_natCast : Normal (-52) 15 (Float.ofNat n).toModel.unpack := by
  rcases lt_or_ge n (2 ^ 53) with hsmall | hlarge
  · have hproduct := (normal_ofNat h0 h).mul normal_one (by decide)
    rw [natCast_eq hsmall, unpack_mul, unpack_toFloat h0 h, hproduct.unpack_pack (by decide) (by decide)]
    exact hproduct.mono (by decide) (by decide)
  · have hcount := normal_ofScientific h0 h
    show Normal (-52) 15 (Float.ofScientific n false 0).toModel.unpack
    unfold Float.ofScientific
    rw [dif_neg (fun hsmall => absurd hsmall.1 (Nat.not_lt.2 hlarge)), if_neg Bool.false_ne_true]
    show Normal (-52) 15 (Float.Model.pack (UnpackedFloat.ofScientific Format.binary64 n 0)).unpack
    rw [hcount.unpack_pack (by decide) (by decide)]
    exact hcount.mono (by decide) (by decide)

end Counts

/-- A natural number below the machine words has no minus sign as a double. -/
theorem unsigned_natCast {n : Nat} (h : n < 2 ^ 64) : Unsigned (Float.ofNat n).toModel.unpack := by
  rcases n.eq_zero_or_pos with rfl | h0
  · have hzero : (Float.ofNat 0).toModel.unpack = .zero .positive := by rfl
    rw [hzero]
    exact .zero
  · exact (normal_natCast h0 h).unsigned

end FirstMatch.Binary64
