import Mathlib.Algebra.Order.Ring.Int
import Stepwise.Double.Parts

/-!
# Numbers of 53 binary digits

A double has 53 binary digits. A longer number is rounded to the nearest one of so many digits that
is followed by zeros, and of two to the one with the even last digit.

* `nearestInt`: the rounded integer.
* `nearestInt_eq_self_iff`: integers that rounding leaves.
* `nearestInt_close`: how far it goes.
-/

namespace Stepwise.Double

/-! ## Rounded quotients -/

theorem divHalfEven_mul_right (num den : Nat) {c : Nat} (hc : 0 < c) :
    divHalfEven (num * c) (den * c) = divHalfEven num den := by
  have hlt : den * c < 2 * (num % den * c) ↔ den < 2 * (num % den) := by
    rw [← Nat.mul_assoc, Nat.mul_lt_mul_right hc]
  have heq : 2 * (num % den * c) = den * c ↔ 2 * (num % den) = den := by
    rw [← Nat.mul_assoc, Nat.mul_left_inj hc.ne']
  unfold divHalfEven
  dsimp only
  rw [Nat.mul_div_mul_right _ _ hc, Nat.mul_mod_mul_right]
  simp only [beq_eq_decide, hlt, heq]

theorem divHalfEven_one (n : Nat) : divHalfEven n 1 = n := by
  simp [divHalfEven, Nat.mod_one]

theorem divHalfEven_mul_self (n : Nat) {d : Nat} (hd : 0 < d) : divHalfEven (n * d) d = n := by
  have h := divHalfEven_mul_right n 1 hd
  rwa [Nat.one_mul, divHalfEven_one] at h

/-- A rounded quotient is off by no more than a half. -/
theorem divHalfEven_close (num : Nat) {den : Nat} (h : 0 < den) :
    2 * (divHalfEven num den * den) ≤ 2 * num + den ∧
      2 * num ≤ 2 * (divHalfEven num den * den) + den := by
  have hdivision := Nat.div_add_mod' num den
  have hrest := Nat.mod_lt num h
  unfold divHalfEven
  dsimp only
  split
  · next hup =>
    simp only [Bool.or_eq_true, Bool.and_eq_true, decide_eq_true_eq, beq_iff_eq] at hup
    rw [Nat.add_mul, Nat.one_mul]
    omega
  · next hdown =>
    simp only [Bool.or_eq_true, Bool.and_eq_true, decide_eq_true_eq, beq_iff_eq] at hdown
    omega

/-! ## The nearest number -/

/-- What the last of 53 binary digits counts. -/
def unit (n : Nat) : Nat := 2 ^ (n.log2 - 52)

theorem unit_pos (n : Nat) : 0 < unit n := Nat.two_pow_pos _

/-- The number of 53 binary digits that is nearest, of two the even one. -/
def nearest (n : Nat) : Nat := divHalfEven n (unit n) * unit n

theorem nearest_eq_self_iff {n : Nat} : nearest n = n ↔ unit n ∣ n := by
  unfold nearest
  have hpos := unit_pos n
  generalize unit n = u at hpos
  constructor
  · intro h
    exact ⟨divHalfEven n u, by rw [Nat.mul_comm, h]⟩
  · rintro ⟨q, rfl⟩
    rw [Nat.mul_comm u q, divHalfEven_mul_self q hpos]

theorem nearest_of_lt {n : Nat} (h : n < 2 ^ 53) : nearest n = n := by
  have hlog : n.log2 - 52 = 0 := by
    by_cases h0 : n = 0
    · rw [h0]
      rfl
    · have := (Nat.log2_lt h0).mpr h
      omega
  rw [nearest_eq_self_iff, unit, hlog, Nat.pow_zero]
  exact Nat.one_dvd n

/-- A power of two has one digit, so that rounding does not go below it. -/
theorem two_pow_le_nearest {n k : Nat} (h : 2 ^ k ≤ n) : 2 ^ k ≤ nearest n := by
  have h0 : n ≠ 0 := (Nat.lt_of_lt_of_le (Nat.two_pow_pos k) h).ne'
  have hsplit : 2 ^ n.log2 = 2 ^ (n.log2 - (n.log2 - 52)) * unit n := by
    rw [unit, ← Nat.pow_add]
    congr 1
    omega
  have hquotient : 2 ^ (n.log2 - (n.log2 - 52)) ≤ n / unit n := by
    rw [Nat.le_div_iff_mul_le (unit_pos n), ← hsplit]
    exact Nat.log2_self_le h0
  calc 2 ^ k ≤ 2 ^ n.log2 := Nat.pow_le_pow_right (by decide) ((Nat.le_log2 h0).mpr h)
    _ = 2 ^ (n.log2 - (n.log2 - 52)) * unit n := hsplit
    _ ≤ n / unit n * unit n := Nat.mul_le_mul_right _ hquotient
    _ ≤ nearest n := Nat.mul_le_mul_right _ (divHalfEven_le n (unit n)).1

/-- Nor does it go above one. -/
theorem nearest_le_two_pow {n k : Nat} (h : n ≤ 2 ^ k) : nearest n ≤ 2 ^ k := by
  have hdvd : unit n ∣ 2 ^ k := by
    refine Nat.pow_dvd_pow 2 ?_
    by_cases h0 : n = 0
    · rw [h0]
      exact Nat.zero_le k
    · have hlog : n.log2 ≤ k := by
        have := Nat.log2_self_le h0
        exact (Nat.pow_le_pow_iff_right (by decide)).mp (this.trans h)
      omega
  rcases h.eq_or_lt with rfl | hlt
  · rw [nearest_eq_self_iff.mpr hdvd]
  · obtain ⟨q, hq⟩ := hdvd
    have hquotient : n / unit n < q := by
      rw [Nat.div_lt_iff_lt_mul (unit_pos n), Nat.mul_comm, ← hq]
      exact hlt
    rw [hq, Nat.mul_comm]
    exact Nat.mul_le_mul_right _ ((divHalfEven_le n (unit n)).2.trans hquotient)

theorem log2_mul_two_pow {n : Nat} (h : n ≠ 0) (k : Nat) : (n * 2 ^ k).log2 = n.log2 + k := by
  obtain ⟨hle, hlt⟩ := (Nat.log2_eq_iff h).mp rfl
  refine (Nat.log2_eq_iff (Nat.mul_ne_zero h (Nat.two_pow_pos k).ne')).mpr ⟨?_, ?_⟩
  · rw [Nat.pow_add]
    exact Nat.mul_le_mul_right _ hle
  · rw [Nat.add_right_comm, Nat.pow_add]
    exact Nat.mul_lt_mul_of_pos_right hlt (Nat.two_pow_pos k)

/-! ## The nearest integer -/

/-- The integer of 53 binary digits that is nearest. -/
def nearestInt (n : Int) : Int := n.sign * nearest n.natAbs

theorem nearestInt_of_nonneg {n : Int} (h : 0 ≤ n) : nearestInt n = nearest n.natAbs := by
  rcases h.eq_or_lt with rfl | hpos
  · rfl
  · rw [nearestInt, Int.sign_eq_one_of_pos hpos, Int.one_mul]

theorem nearestInt_of_neg {n : Int} (h : n < 0) : nearestInt n = -nearest n.natAbs := by
  rw [nearestInt, Int.sign_eq_neg_one_of_neg h, Int.neg_one_mul]

theorem natAbs_nearestInt (n : Int) : (nearestInt n).natAbs = nearest n.natAbs := by
  rcases lt_or_ge n 0 with hn | hn
  · rw [nearestInt_of_neg hn, Int.natAbs_neg, Int.natAbs_natCast]
  · rw [nearestInt_of_nonneg hn, Int.natAbs_natCast]

/-- The nearest integer is the integer itself where the digits that are cut off are zeros. -/
theorem nearestInt_eq_self_iff {n : Int} : nearestInt n = n ↔ (unit n.natAbs : Int) ∣ n := by
  rw [Int.natCast_dvd, ← nearest_eq_self_iff]
  constructor
  · intro h
    rw [← natAbs_nearestInt, h]
  · intro h
    rw [nearestInt, h, Int.sign_mul_natAbs]

/-- Rounding goes by no more than half of what the last digit counts. -/
theorem nearestInt_close (n : Int) : 2 * |nearestInt n - n| ≤ unit n.natAbs := by
  obtain ⟨hup, hdown⟩ := divHalfEven_close n.natAbs (unit_pos n.natAbs)
  rw [← nearest] at hup hdown
  rw [Int.abs_eq_natAbs]
  rcases lt_or_ge n 0 with hn | hn
  · rw [nearestInt_of_neg hn]
    omega
  · rw [nearestInt_of_nonneg hn]
    omega

/-- The least signed word is a double. -/
theorem le_nearestInt {n : Int} (h : -2 ^ 63 ≤ n) : -2 ^ 63 ≤ nearestInt n := by
  rcases lt_or_ge n 0 with hn | hn
  · have hle : nearest n.natAbs ≤ 2 ^ 63 := nearest_le_two_pow (by omega)
    rw [nearestInt_of_neg hn]
    omega
  · rw [nearestInt_of_nonneg hn]
    omega

/-- The first number beyond the signed words is a double. -/
theorem nearestInt_ge {n : Int} (h : 2 ^ 63 ≤ n) : 2 ^ 63 ≤ nearestInt n := by
  have hle : 2 ^ 63 ≤ nearest n.natAbs := two_pow_le_nearest (by omega)
  rw [nearestInt_of_nonneg (by omega)]
  omega

end Stepwise.Double
