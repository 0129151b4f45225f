import Mathlib.Tactic.Ring
import Stepwise.Proofs.Nearest

/-!
# Integers rounded to doubles

The double of an integer is the nearest integer of 53 binary digits. So no integer other than zero
becomes a zero, and a division may test its divisor after rounding; and a whole number that is read
back from a double is the integer it was made from, if the digits of this integer fit.

* `Whole.round`: cutting a mantissa down to 53 digits is rounding to the nearest number.
* `Whole.repack`, `parts_eq`: the bits of a double keep what it is.
* `isWhole_ofInt`: the double of an integer.
* `ofInt_beq_zero`: a signed word is zero as a double exactly if it is zero.
* `toInt64_ofInt`, `toInt64_roundHalfEven_ofInt`: the double of an integer as a signed word.
-/

namespace Stepwise.Double

open Float.Model Float.Model.UnpackedFloat

/-! ## Rounding -/

/-- The round bit says whether half of a digit or more is cut off, and the sticky bit whether it is
neither nothing nor a half. -/
theorem shiftRight_exact (m k : Nat) :
    (⟨m, false, false⟩ : ExtendedMantissa) >>> k =
      ⟨m / 2 ^ k, decide (2 ^ k ≤ 2 * (m % 2 ^ k)), decide (2 * (m % 2 ^ k) % 2 ^ k ≠ 0)⟩ := by
  show Nat.repeat ExtendedMantissa.shiftRightOne k _ = _
  induction k with
  | zero => simp [Nat.repeat, Nat.mod_one]
  | succ k ih =>
    rw [Nat.repeat, ih, ExtendedMantissa.shiftRightOne]
    have hpos : 0 < 2 ^ k := Nat.two_pow_pos k
    have hrest : m % 2 ^ k < 2 ^ k := Nat.mod_lt m hpos
    have hmod : m % 2 ^ (k + 1) = m % 2 ^ k + 2 ^ k * (m / 2 ^ k % 2) := by
      rw [Nat.pow_succ, Nat.mod_mul]
    have hdouble : 2 * (m % 2 ^ (k + 1)) % 2 ^ (k + 1) = 2 * (m % 2 ^ k) := by
      rw [Nat.pow_succ, Nat.mul_comm (2 ^ k), Nat.mul_mod_mul_left, ← Nat.pow_succ', hmod,
        Nat.add_mul_mod_self_left, Nat.mod_mod]
    have hround : m / 2 ^ k % 2 ≠ 0 ↔ 2 ^ (k + 1) ≤ 2 * (m % 2 ^ (k + 1)) := by
      rw [hmod, Nat.pow_succ]
      rcases Nat.mod_two_eq_zero_or_one (m / 2 ^ k) with h | h
      · rw [h]
        omega
      · rw [h]
        omega
    have hsticky : 2 ^ k ≤ 2 * (m % 2 ^ k) ∨ 2 * (m % 2 ^ k) % 2 ^ k ≠ 0 ↔
        2 * (m % 2 ^ k) ≠ 0 := by
      by_cases hle : 2 ^ k ≤ 2 * (m % 2 ^ k)
      · omega
      · rw [Nat.mod_eq_of_lt (Nat.lt_of_not_le hle)]
        omega
    rw [hdouble, Nat.div_div_eq_div_mul, ← Nat.pow_succ]
    congr 1
    · rw [Bool.eq_iff_iff, bne_iff_ne, decide_eq_true_iff]
      exact hround
    · rw [← decide_eq_decide.mpr hsticky, Bool.decide_or]

/-- More than a half of the last digit rounds up, and a half to the even number. -/
theorem roundedMantissa_shiftRight (m k : Nat) :
    ((⟨m, false, false⟩ : ExtendedMantissa) >>> k).roundedMantissa = divHalfEven m (2 ^ k) := by
  have hpos : 0 < 2 ^ k := Nat.two_pow_pos k
  have hrest : m % 2 ^ k < 2 ^ k := Nat.mod_lt m hpos
  rw [shiftRight_exact, divHalfEven, ExtendedMantissa.roundedMantissa]
  dsimp only
  generalize m / 2 ^ k = q
  generalize m % 2 ^ k = r at hrest ⊢
  generalize 2 ^ k = d at hpos hrest ⊢
  rcases Nat.lt_trichotomy (2 * r) d with hless | hhalf | hmore
  · rw [decide_eq_false (by omega), Nat.mod_eq_of_lt hless, if_neg (by simp; omega)]
    by_cases hzero : 2 * r = 0
    · rw [decide_eq_false (by omega)]
      rfl
    · rw [decide_eq_true (by omega)]
      rfl
  · rw [hhalf, Nat.mod_self, decide_eq_true le_rfl, decide_eq_false (by omega)]
    show q + q % 2 = _
    rcases Nat.mod_two_eq_zero_or_one q with h | h
    · rw [h, if_neg (by simp)]
      rfl
    · rw [h, if_pos (by simp)]
  · have hmod : 2 * r % d ≠ 0 := by
      rw [Nat.mod_eq_sub_mod hmore.le, Nat.mod_eq_of_lt (by omega)]
      omega
    rw [decide_eq_true hmore.le, decide_eq_true hmod, if_pos (by simp [hmore])]
    rfl

/-- A finite double of the given sign and a whole magnitude, with all its digits in use. -/
inductive Whole (s : Sign) (n : Nat) : UnpackedFloat → Prop
  | finite {m : Nat} {e : Int} {h : 0 < m} (hfull : 2 ^ 52 ≤ m) (hm : m < 2 ^ 53)
    (hlow : -1074 ≤ e) (he : e ≤ 971) (hvalue : m * 2 ^ e.toNat = n * 2 ^ (-e).toNat) :
    Whole s n (.finite s m e h)

/-- Half the mantissa at the next exponent. -/
theorem carried_value {m n : Nat} {e : Int} (h : 2 * m * 2 ^ e.toNat = n * 2 ^ (-e).toNat) :
    m * 2 ^ (e + 1).toNat = n * 2 ^ (-(e + 1)).toNat := by
  rcases lt_or_ge e 0 with he | he
  · rw [Int.toNat_of_nonpos (by omega : e + 1 ≤ 0), Nat.pow_zero, Nat.mul_one]
    have hexponent : (-e).toNat = (-(e + 1)).toNat + 1 := by omega
    rw [Int.toNat_of_nonpos he.le, hexponent, Nat.pow_zero, Nat.mul_one, Nat.pow_succ,
      ← Nat.mul_assoc] at h
    omega
  · have hexponent : (e + 1).toNat = e.toNat + 1 := by omega
    rw [Int.toNat_of_nonpos (by omega : -(e + 1) ≤ 0), hexponent, Nat.pow_succ]
    rw [Int.toNat_of_nonpos (by omega : -e ≤ 0)] at h
    rw [← h]
    ring

theorem shiftToTargetExponent_exact {m k : Nat} {e : Int} (hk : m.log2 = 52 + k)
    (he : -1074 ≤ e + k) :
    shiftToTargetExponent .binary64 m e .exact =
      ((⟨m, false, false⟩ : ExtendedMantissa) >>> k, e + k) := by
  have htarget : Format.binary64.targetExponent (totalExponent m e) =
      max (m.log2 + 1 + e - 53) (-1074) := rfl
  have hshift : (max ((m.log2 : Int) + 1 + e - 53) (-1074) - e).toNat = k := by omega
  dsimp only [shiftToTargetExponent, shiftToExponent]
  rw [htarget, hshift]
  rfl

/-- Rounding a magnitude of more than 52 binary digits. When all digits carry, the first digit of
the result counts twice as much as before. -/
theorem Whole.round {s : Sign} {m k n : Nat} {e : Int} (hk : m.log2 = 52 + k)
    (hlow : -1074 ≤ e + k) (hhigh : e + k ≤ 970)
    (hvalue : divHalfEven m (2 ^ k) * 2 ^ (e + k).toNat = n * 2 ^ (-(e + k)).toNat) :
    Whole s n (roundWithAccuracy .binary64 s m e .exact) := by
  have h0 : m ≠ 0 := by
    rintro rfl
    rw [Nat.log2_zero] at hk
    omega
  obtain ⟨hle, hlt⟩ := (Nat.log2_eq_iff h0).mp hk
  have hquotient : 2 ^ 52 ≤ m / 2 ^ k ∧ m / 2 ^ k < 2 ^ 53 := by
    rw [Nat.le_div_iff_mul_le (Nat.two_pow_pos k), Nat.div_lt_iff_lt_mul (Nat.two_pow_pos k),
      ← Nat.pow_add, ← Nat.pow_add]
    exact ⟨hle, by rwa [Nat.add_right_comm] at hlt⟩
  obtain ⟨hleast, hmost⟩ := divHalfEven_le m (2 ^ k)
  unfold roundWithAccuracy
  rw [shiftToTargetExponent_exact hk hlow]
  dsimp only
  rw [roundedMantissa_shiftRight]
  generalize divHalfEven m (2 ^ k) = r at hleast hmost hvalue ⊢
  generalize e + k = f at hlow hhigh hvalue ⊢
  rcases Nat.lt_or_ge r (2 ^ 53) with hr | hr
  · have hlog : r.log2 = 52 + 0 := (Nat.log2_eq_iff (by omega)).mpr ⟨by omega, hr⟩
    rw [shiftToTargetExponent_exact hlog (by omega)]
    dsimp only
    have hr0 : r ≠ 0 := by omega
    have hfull : 2 ^ 52 ≤ r := by omega
    rw [shiftRight_exact, Nat.pow_zero, Nat.div_one, dif_neg hr0]
    exact .finite hfull hr (by omega) (by omega) (by simpa using hvalue)
  · -- All digits carried, so that there is one digit too many, which is zero.
    obtain rfl : r = 2 ^ 53 := by omega
    have hlog : (2 ^ 53).log2 = 52 + 1 := Nat.log2_two_pow
    rw [shiftToTargetExponent_exact hlog (by omega)]
    dsimp only
    rw [shiftRight_exact, dif_neg (by decide)]
    exact .finite (by decide) (by decide) (by omega) (by omega) (carried_value hvalue)

theorem mul_finite (spec : Format) (s t : Sign) {m n : Nat} (e f : Int) (hm : 0 < m) (hn : 0 < n) :
    UnpackedFloat.mul spec (.finite s m e hm) (.finite t n f hn) =
      roundWithAccuracy spec (s * t) (m * n) (e + f) .exact := rfl

/-! ## Bits -/

theorem toNat_one_append (b : BitVec 52) : (1#1 ++ b).toNat = 2 ^ 52 + b.toNat := by
  rw [BitVec.toNat_append, ← Nat.shiftLeft_add_eq_or_of_lt b.isLt]
  rfl

/-- An exponent that is neither the least nor the greatest stands before a mantissa whose first
digit is not written. -/
theorem Whole.unpack {b : BitVec Format.binary64.numBits} {s : Sign} {m n : Nat} {e : Int}
    (hsign : Sign.ofBitVec (unpackSign b) = s) (hmantissa : 2 ^ 52 + (unpackMantissa b).toNat = m)
    (hexponent : ((unpackExponent b).toNat : Int) - 1075 = e) (hlow : -1074 ≤ e) (he : e ≤ 971)
    (hvalue : m * 2 ^ e.toNat = n * 2 ^ (-e).toNat) :
    Whole s n (UnpackedFloat.unpack .binary64 b) := by
  have hleast : unpackExponent b ≠ 0#11 := fun h => by
    have hfield : _ = 0 := congrArg BitVec.toNat h
    omega
  have hgreatest : unpackExponent b ≠ -1#11 := fun h => by
    have hfield : _ = 2047 := congrArg BitVec.toNat h
    omega
  have hlt := (unpackMantissa b).isLt
  subst hsign hmantissa hexponent
  unfold UnpackedFloat.unpack
  dsimp only
  rw [if_neg hgreatest, if_neg hleast]
  rw [← toNat_one_append] at hvalue
  exact .finite (by rw [toNat_one_append]; omega) (1#1 ++ unpackMantissa b).isLt hlow he hvalue

theorem toNat_unpackSign (b : BitVec Format.binary64.numBits) :
    (unpackSign b).toNat = b.toNat / 2 ^ 63 % 2 ^ 1 :=
  (BitVec.extractLsb_toNat 63 63 b).trans (by rw [Nat.shiftRight_eq_div_pow])

theorem ofBitVec_unpackSign_packComponents (s : Sign) (e : BitVec Format.binary64.exponentBits)
    (m : BitVec Format.binary64.mantissaBitsWithoutImplicit) :
    Sign.ofBitVec (unpackSign (packComponents .binary64 s e m)) = s := by
  have hsign : unpackSign (packComponents .binary64 s e m) = s.toBitVec := by
    refine BitVec.eq_of_toNat_eq ?_
    have hm : m.toNat < 2 ^ 52 := m.isLt
    have he : e.toNat < 2 ^ 11 := e.isLt
    have hs : s.toBitVec.toNat < 2 ^ 1 := s.toBitVec.isLt
    rw [toNat_unpackSign, packComponents, BitVec.toNat_append, BitVec.toNat_append,
      ← Nat.shiftLeft_add_eq_or_of_lt hm, ← Nat.shiftLeft_add_eq_or_of_lt he, Nat.shiftLeft_eq,
      Nat.shiftLeft_eq]
    show ((s.toBitVec.toNat * 2 ^ 11 + e.toNat) * 2 ^ 52 + m.toNat) / 2 ^ 63 % 2 ^ 1 = _
    omega
  rw [hsign]
  cases s <;> rfl

/-- The bits of such a double keep what it is. -/
theorem Whole.repack {s : Sign} {n : Nat} {u : UnpackedFloat} (h : Whole s n u) :
    Whole s n (UnpackedFloat.unpack .binary64 (UnpackedFloat.pack .binary64 u)) := by
  have hbias : Format.binary64.exponentBias = 1023 := rfl
  have hbits : Format.binary64.mantissaBits = 53 := rfl
  cases h with
  | @finite m e hpos hfull hm hlow he hvalue =>
    have hlog : m.log2 = 52 := (Nat.log2_eq_iff hpos.ne').mpr ⟨hfull, hm⟩
    dsimp only [UnpackedFloat.pack, hbias]
    rw [if_neg (by omega), if_pos (by rw [hlog, hbits])]
    refine .unpack ?_ ?_ ?_ hlow he hvalue
    · exact ofBitVec_unpackSign_packComponents ..
    · rw [unpackMantissa_packComponents, BitVec.toNat_ofNat, Nat.mod_eq_sub_mod hfull,
        Nat.mod_eq_of_lt (by omega)]
      omega
    · rw [unpackExponent_packComponents, BitVec.toNat_ofNat]
      show (((e + 1023 + 52).toNat % 2048 : Nat) : Int) - 1075 = e
      omega

/-- The fields of the bits, read off the number they stand for. -/
theorem fields_of_unpack {b : BitVec Format.binary64.numBits} {s : Sign} {m : Nat} {e : Int}
    {h : 0 < m} (hunpack : UnpackedFloat.unpack .binary64 b = .finite s m e h)
    (hfull : 2 ^ 52 ≤ m) :
    Sign.ofBitVec (unpackSign b) = s ∧ 2 ^ 52 + (unpackMantissa b).toNat = m ∧
      ((unpackExponent b).toNat : Int) - 1075 = e ∧ (unpackExponent b).toNat ≠ 0 := by
  unfold UnpackedFloat.unpack at hunpack
  dsimp only at hunpack
  by_cases hgreatest : unpackExponent b = -1#11
  · rw [if_pos hgreatest] at hunpack
    by_cases hzero : unpackMantissa b = 0#52
    · rw [if_pos hzero] at hunpack
      cases hunpack
    · rw [if_neg hzero] at hunpack
      cases hunpack
  rw [if_neg hgreatest] at hunpack
  by_cases hleast : unpackExponent b = 0#11
  · -- Below the least normal number, where the first digit is not left out.
    rw [if_pos hleast] at hunpack
    by_cases hzero : unpackMantissa b = 0#52
    · rw [dif_pos hzero] at hunpack
      cases hunpack
    · rw [dif_neg hzero] at hunpack
      cases hunpack
      exact absurd (unpackMantissa b).isLt (Nat.not_lt.mpr hfull)
  · rw [if_neg hleast] at hunpack
    cases hunpack
    exact ⟨rfl, (toNat_one_append _).symm, rfl, fun h => hleast (BitVec.eq_of_toNat_eq h)⟩

theorem toNat_unpackMantissa (b : BitVec Format.binary64.numBits) :
    (unpackMantissa b).toNat = b.toNat % 2 ^ 52 := by
  rw [unpackMantissa, BitVec.toNat_cast, BitVec.extractLsb_toNat, Nat.shiftRight_zero]
  rfl

theorem toNat_unpackExponent (b : BitVec Format.binary64.numBits) :
    (unpackExponent b).toNat = b.toNat / 2 ^ 52 % 2 ^ 11 := by
  rw [unpackExponent, BitVec.toNat_cast, BitVec.extractLsb_toNat, Nat.shiftRight_eq_div_pow]
  rfl

theorem ofBitVec_unpackSign (b : BitVec Format.binary64.numBits) :
    Sign.ofBitVec (unpackSign b) = if 2 ^ 63 ≤ b.toNat then .negative else .positive := by
  have hlt : b.toNat < 2 ^ 64 := b.isLt
  have hsign := toNat_unpackSign b
  unfold Sign.ofBitVec
  by_cases hle : 2 ^ 63 ≤ b.toNat
  · rw [if_pos hle, if_neg fun h => ?_]
    have hzero : (unpackSign b).toNat = 0 := congrArg BitVec.toNat h
    omega
  · rw [if_neg hle, if_pos (BitVec.eq_of_toNat_eq _)]
    rw [hsign]
    show _ = 0
    omega

theorem parts_eq {x : Float} {s : Sign} {m : Nat} {e : Int} {h : 0 < m}
    (hunpack : x.toModel.unpack = .finite s m e h) (hfull : 2 ^ 52 ≤ m) :
    (if (parts x).negative then Sign.negative else .positive) = s ∧
      (parts x).mantissa = m ∧ (parts x).exponent = e := by
  obtain ⟨hsign, hmantissa, hexponent, hleast⟩ := fields_of_unpack hunpack hfull
  rw [ofBitVec_unpackSign] at hsign
  rw [toNat_unpackMantissa] at hmantissa
  rw [toNat_unpackExponent] at hexponent hleast
  have hparts : parts x = ⟨Nat.pow 2 63 ≤ x.toBits.toNat,
      x.toBits.toNat % Nat.pow 2 52 + Nat.pow 2 52,
      (x.toBits.toNat / Nat.pow 2 52 % Nat.pow 2 11 : Nat) - 1075⟩ :=
    if_neg (mt beq_iff_eq.mp hleast)
  rw [hparts]
  refine ⟨?_, ?_, hexponent⟩
  · rw [← hsign]
    exact if_congr decide_eq_true_iff rfl rfl
  · rw [← hmantissa]
    exact Nat.add_comm _ _

/-! ## Doubles -/

/-- The double is finite, has this sign and this whole magnitude. -/
def IsWhole (s : Sign) (n : Nat) (x : Float) : Prop := Whole s n x.toModel.unpack

section

variable {s : Sign} {n : Nat} {x : Float}

theorem IsWhole.isNaN (h : IsWhole s n x) : x.isNaN = false := by
  show x.toModel.unpack.isNaN = false
  unfold IsWhole at h
  generalize x.toModel.unpack = u at h
  cases h
  rfl

theorem IsWhole.isFinite (h : IsWhole s n x) : x.isFinite = true := by
  show x.toModel.unpack.isFinite = true
  unfold IsWhole at h
  generalize x.toModel.unpack = u at h
  cases h
  rfl

/-- The parts, with all digits of the mantissa in use. -/
theorem IsWhole.parts (h : IsWhole s n x) :
    (if (parts x).negative then Sign.negative else .positive) = s ∧
      (parts x).mantissa < 2 ^ 53 ∧ 2 ^ 52 ≤ (parts x).mantissa ∧
      (parts x).mantissa * 2 ^ (parts x).exponent.toNat = n * 2 ^ (-(parts x).exponent).toNat := by
  unfold IsWhole at h
  generalize hu : x.toModel.unpack = u at h
  cases h with
  | finite hfull hm hlow he hvalue =>
    obtain ⟨hsign, hmantissa, hexponent⟩ := parts_eq hu hfull
    rw [hmantissa, hexponent]
    exact ⟨hsign, hm, hfull, hvalue⟩

/-- A rounding that keeps the quotients that leave nothing keeps a whole magnitude. -/
theorem IsWhole.round (h : IsWhole s n x) {quotient : Nat → Nat → Nat}
    (hquotient : ∀ m d, 0 < d → quotient (m * d) d = m) : (Double.parts x).round quotient = n := by
  obtain ⟨-, -, -, hvalue⟩ := h.parts
  unfold Parts.round
  split
  · next he =>
    rw [Int.toNat_of_nonpos (by omega : -(Double.parts x).exponent ≤ 0), Nat.pow_zero,
      Nat.mul_one] at hvalue
    exact hvalue
  · next he =>
    rw [Int.toNat_of_nonpos (by omega : (Double.parts x).exponent ≤ 0), Nat.pow_zero,
      Nat.mul_one] at hvalue
    rw [hvalue]
    exact hquotient n _ (Nat.two_pow_pos _)

theorem IsWhole.toInt (h : IsWhole s n x) : toInt x = s.apply n := by
  unfold Double.toInt
  dsimp only
  rw [h.round fun m d hd => Nat.mul_div_cancel m hd, ← h.parts.1]
  cases (Double.parts x).negative <;> rfl

theorem IsWhole.toInt64 (h : IsWhole s n x) :
    toInt64 x = clamp (-(Nat.pow 2 63 : Int)) (Nat.pow 2 63 - 1) (s.apply n) := by
  unfold Double.toInt64
  rw [h.isNaN, if_neg Bool.false_ne_true, h.isFinite, if_pos rfl, h.toInt]

theorem IsWhole.neg (h : IsWhole s n x) : IsWhole (-s) n (-x) := by
  show Whole (-s) n
    (UnpackedFloat.unpack .binary64 (UnpackedFloat.pack .binary64 x.toModel.unpack.neg))
  unfold IsWhole at h
  generalize x.toModel.unpack = u at h
  cases h with
  | finite hfull hm hlow he hvalue => exact .repack (.finite hfull hm hlow he hvalue)

theorem unpack_one : (Float.ofBits 4607182418800017408).toModel.unpack =
    .finite .positive (2 ^ 52) (-52) (by decide) := by
  have hbits : UnpackedFloat.unpack .binary64 4607182418800017408#64 =
      .finite .positive (2 ^ 52) (-52) (by decide) := by
    with_unfolding_all rfl
  show UnpackedFloat.unpack .binary64
    (UnpackedFloat.pack .binary64 (UnpackedFloat.unpack .binary64 4607182418800017408#64)) = _
  rw [hbits]
  exact hbits

/-- Nothing is lost by a factor of one. -/
theorem IsWhole.mul_one (h : IsWhole s n x) (hn : n < 2 ^ 53) :
    IsWhole s n (x * Float.ofBits 4607182418800017408) := by
  show Whole s n (UnpackedFloat.unpack .binary64 (UnpackedFloat.pack .binary64
    (UnpackedFloat.mul .binary64 x.toModel.unpack
      (Float.ofBits 4607182418800017408).toModel.unpack)))
  unfold IsWhole at h
  generalize x.toModel.unpack = u at h
  rw [unpack_one]
  refine .repack ?_
  cases h with
  | @finite m e hpos hfull hm hlow he hvalue =>
    have hlog : (m * 2 ^ 52).log2 = 52 + 52 := by
      rw [log2_mul_two_pow hpos.ne', (Nat.log2_eq_iff hpos.ne').mpr ⟨hfull, hm⟩]
    have hexponent : e ≤ 0 := by
      refine not_lt.mp fun hpos' => absurd hn (Nat.not_lt.mpr ?_)
      rw [Int.toNat_of_nonpos (by omega : -e ≤ 0), Nat.pow_zero, Nat.mul_one] at hvalue
      calc 2 ^ 53 = 2 ^ 52 * 2 ^ 1 := rfl
        _ ≤ m * 2 ^ e.toNat :=
          Nat.mul_le_mul hfull (Nat.pow_le_pow_right (by decide) (by omega))
        _ = n := hvalue
    have hsign : s * Sign.positive = s := by cases s <;> rfl
    have hexact : e + -52 + (52 : Nat) = e := by omega
    rw [mul_finite, hsign]
    refine .round hlog (by omega) (by omega) ?_
    rw [divHalfEven_mul_self m (Nat.two_pow_pos 52), hexact]
    exact hvalue

end

theorem isWhole_toFloat {n : UInt64} (h : n ≠ 0) (hn : n.toNat < 2 ^ 53) :
    IsWhole .positive n.toNat n.toFloat := by
  have hpos : n.toNat ≠ 0 := fun h' => h (UInt64.toNat_inj.mp h')
  have hlog : n.toNat.log2 < 53 := (Nat.log2_lt hpos).mpr hn
  have htarget : Format.binary64.targetExponent (totalExponent n.toNat 0) =
      max ((n.toNat.log2 : Int) + 1 + 0 - 53) (-1074) := rfl
  have hsign : compare (n.toNat : Int) 0 = .gt := Int.compare_eq_gt.mpr (by omega)
  have hshift : (0 - max ((n.toNat.log2 : Int) + 1 + 0 - 53) (-1074)).toNat =
      52 - n.toNat.log2 := by
    omega
  show Whole _ _ (UnpackedFloat.unpack .binary64
    (UnpackedFloat.pack .binary64 (UnpackedFloat.normalize .binary64 n.toNat 0 .positive)))
  refine .repack ?_
  rw [UnpackedFloat.normalize, hsign]
  dsimp only [UnpackedFloat.round, decreaseExponent]
  rw [Int.toNat_natCast, htarget, Nat.shiftLeft_eq, hshift]
  generalize hk : 52 - n.toNat.log2 = k
  refine .round (k := 0) ?_ (by omega) (by omega) ?_
  · rw [log2_mul_two_pow hpos]
    omega
  · rw [Nat.pow_zero, divHalfEven_one, Int.toNat_of_nonpos (by omega), Nat.pow_zero, Nat.mul_one]
    congr 2
    omega

theorem isWhole_ofNat {n : Nat} (h : n ≠ 0) (hn : n < 2 ^ 64) :
    IsWhole .positive (nearest n) (Float.ofNat n) := by
  show IsWhole _ _ (Float.ofScientific n false 0)
  unfold Float.ofScientific
  split
  · -- A number whose digits fit becomes a word, whose double is multiplied by one.
    next hsmall =>
    have htoNat : n.toUInt64.toNat = n := Nat.mod_eq_of_lt hn
    have hwhole : IsWhole .positive n n.toUInt64.toFloat := by
      have h' := isWhole_toFloat (n := n.toUInt64)
      rw [htoNat] at h'
      exact h' (fun h0 => h (htoNat ▸ congrArg UInt64.toNat h0)) hsmall.1
    rw [nearest_of_lt hsmall.1]
    exact hwhole.mul_one hsmall.1
  · -- Any other is cut down from a mantissa that has all its digits.
    next hlarge =>
    have hlog : 53 ≤ n.log2 := (Nat.le_log2 h).mpr (by omega)
    have hlog' : n.log2 < 64 := (Nat.log2_lt h).mpr hn
    have hexponent : ¬(0 : Int) < -(2 ^ 11 + (n.log2 : Int)) := by omega
    have hbits : Format.binary64.mantissaBits = 53 := rfl
    have hden : 2 ^ (n.log2 + 1) = unit n * 2 ^ 53 := by
      rw [unit, ← Nat.pow_add]
      congr 1
      omega
    show Whole _ _ (UnpackedFloat.unpack .binary64
      (UnpackedFloat.pack .binary64 (UnpackedFloat.ofScientific .binary64 n 0)))
    refine .repack ?_
    rw [UnpackedFloat.ofScientific, dif_neg h, if_neg (by decide), if_neg hexponent, if_pos le_rfl,
      mul_finite, hbits, Nat.shiftLeft_eq]
    refine .round (k := n.log2 + 1) ?_ (by omega) (by omega) ?_
    · rw [Int.toNat_zero, Nat.pow_zero, Nat.mul_one, log2_mul_two_pow h]
      omega
    · have hplace : (-(53 : Nat) + 0 + (n.log2 + 1 : Nat) : Int) = (n.log2 - 52 : Nat) := by omega
      rw [Int.toNat_zero, Nat.pow_zero, Nat.mul_one, hden, divHalfEven_mul_right _ _ (by decide),
        hplace, Int.toNat_natCast, Int.toNat_of_nonpos (by omega), Nat.pow_zero, Nat.mul_one]
      rfl

/-- Rounding a whole double to a whole number leaves its value. -/
theorem IsWhole.roundHalfEven {s : Sign} {n : Nat} {x : Float} (h : IsWhole s n x) :
    IsWhole s n (roundHalfEven x) := by
  obtain ⟨hsign, hm, hfull, hvalue⟩ := h.parts
  unfold Double.roundHalfEven
  dsimp only
  split
  · exact h
  · next he =>
    have hround : (Double.parts x).round divHalfEven = n :=
      h.round fun m _ hd => divHalfEven_mul_self m hd
    rw [Int.toNat_of_nonpos (by omega : (Double.parts x).exponent ≤ 0), Nat.pow_zero,
      Nat.mul_one] at hvalue
    have hn : n < 2 ^ 53 :=
      (Nat.le_mul_of_pos_right n (Nat.two_pow_pos _)).trans_lt (hvalue ▸ hm)
    have h0 : n ≠ 0 := by
      rintro rfl
      omega
    have hmagnitude := isWhole_ofNat h0 (hn.trans (by decide))
    rw [nearest_of_lt hn] at hmagnitude
    rw [hround, ofWhole, ← hsign]
    cases (Double.parts x).negative with
    | true => exact hmagnitude.neg
    | false => exact hmagnitude

/-! ## Integers -/

/-- An integer as a double, which is zero for zero alone. -/
theorem isWhole_ofInt {n : Int} (h : n ≠ 0) (hn : n.natAbs < 2 ^ 64) :
    ∃ s, IsWhole s (nearest n.natAbs) (Float.ofInt n) ∧
      s.apply (nearest n.natAbs) = nearestInt n := by
  have h0 : n.natAbs ≠ 0 := Int.natAbs_ne_zero.mpr h
  cases n with
  | ofNat n =>
    exact ⟨.positive, isWhole_ofNat h0 hn, (nearestInt_of_nonneg (Int.natCast_nonneg n)).symm⟩
  | negSucc n =>
    exact ⟨.negative, (isWhole_ofNat h0 hn).neg, (nearestInt_of_neg (Int.negSucc_lt_zero n)).symm⟩

theorem IsWhole.beq_zero {s : Sign} {n : Nat} {x : Float} (h : IsWhole s n x) :
    (x == 0) = false := by
  have hzero : (0 : Float).toModel.unpack = .zero .positive := rfl
  show x.toModel.unpack.beq (0 : Float).toModel.unpack = false
  rw [hzero]
  unfold IsWhole at h
  generalize x.toModel.unpack = u at h
  cases h
  cases s <;> rfl

/-- A signed word is zero as a double exactly if it is zero. -/
theorem ofInt_beq_zero {n : Int} (hlow : -2 ^ 63 ≤ n) (hhigh : n < 2 ^ 63) :
    (Float.ofInt n == 0) = decide (n = 0) := by
  by_cases h : n = 0
  · subst h
    rfl
  · obtain ⟨s, hs, -⟩ := isWhole_ofInt h (by omega)
    rw [decide_eq_false h, hs.beq_zero]

theorem clamp_eq_min {low high n : Int} (h : low ≤ n) (h' : low ≤ high) :
    clamp low high n = min n high := by
  rw [clamp, max_eq_right (le_min h' h), min_comm]

theorem parts_ofInt_zero : parts (Float.ofInt 0) = ⟨false, 0, -1074⟩ := rfl

/-- No rounding of fractions makes zero another number. -/
theorem Parts.round_zero {p : Parts} (hp : p.mantissa = 0) {quotient : Nat → Nat → Nat}
    (hquotient : ∀ d, quotient 0 d = 0) : p.round quotient = 0 := by
  unfold Parts.round
  rw [hp, Nat.zero_mul, hquotient, ite_self]

theorem roundHalfEven_ofInt_zero : roundHalfEven (Float.ofInt 0) = Float.ofInt 0 := by
  have hround : (parts (Float.ofInt 0)).round divHalfEven = 0 :=
    Parts.round_zero rfl fun d => by simp [divHalfEven]
  unfold roundHalfEven
  dsimp only
  rw [hround, parts_ofInt_zero]
  rfl

theorem toInt64_ofInt_zero : toInt64 (Float.ofInt 0) = 0 := by
  have hround : (parts (Float.ofInt 0)).round (· / ·) = 0 := Parts.round_zero rfl Nat.zero_div
  have hint : toInt (Float.ofInt 0) = 0 := by
    unfold toInt
    dsimp only
    rw [hround, parts_ofInt_zero]
    rfl
  unfold toInt64
  rw [hint]
  rfl

section

variable {n : Int} (hlow : -2 ^ 63 ≤ n) (hhigh : n < 2 ^ 64)
include hlow hhigh

theorem toInt64_ofInt : toInt64 (Float.ofInt n) = min (nearestInt n) (2 ^ 63 - 1) := by
  by_cases h : n = 0
  · rw [h, toInt64_ofInt_zero]
    rfl
  · obtain ⟨s, hs, hvalue⟩ := isWhole_ofInt h (by omega)
    rw [hs.toInt64, hvalue]
    exact clamp_eq_min (le_nearestInt hlow) (by decide)

theorem toInt64_roundHalfEven_ofInt :
    toInt64 (roundHalfEven (Float.ofInt n)) = min (nearestInt n) (2 ^ 63 - 1) := by
  by_cases h : n = 0
  · rw [h, roundHalfEven_ofInt_zero, toInt64_ofInt_zero]
    rfl
  · obtain ⟨s, hs, hvalue⟩ := isWhole_ofInt h (by omega)
    rw [hs.roundHalfEven.toInt64, hvalue]
    exact clamp_eq_min (le_nearestInt hlow) (by decide)

end

end Stepwise.Double
