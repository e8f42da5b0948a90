import Mathlib.Data.Rat.Cast.Order
import Mathlib.Tactic.FieldSimp
import Mathlib.Tactic.Push
import TriggerGraph.Number.Double

/-!
# Integers as doubles

Every integer of magnitude at most `2⁵³` is a double, so conversion to a double loses nothing there
and casting back gives the integer again.
-/

namespace TriggerGraph

theorem power_eq (base exponent : ℕ) : power base exponent = base ^ exponent := rfl

theorem roundQuotient_of_dvd {numerator denominator : Nat} (positive : 0 < denominator)
    (divides : denominator ∣ numerator) :
    roundQuotient numerator denominator = numerator / denominator := by
  simp [roundQuotient, Nat.mod_eq_zero_of_dvd divides, positive]

namespace Double

/-- The number a double denotes; the ones that are not finite denote none and count as zero. -/
def toRat : Double → ℚ
  | finite negative magnitude =>
      if negative then -(magnitude.units / one : ℚ) else magnitude.units / one
  | _ => 0

theorem toRat_of_isZero {value : Double} (zero : value.isZero = true) : value.toRat = 0 := by
  cases value with
  | nan => rfl
  | infinity negative => rfl
  | finite negative magnitude =>
      have none : magnitude.units = 0 := by simpa [isZero] using zero
      rw [toRat, none, Nat.cast_zero, zero_div, neg_zero, ite_self]

/-- One is a power of two, with room for 53 binary digits below it and many above it. -/
theorem exists_one_eq : ∃ exponent, one = power 2 exponent ∧ 104 ≤ exponent ∧ exponent < 2032 :=
  ⟨1074, rfl, by decide, by decide⟩

theorem one_pos : 0 < one := power_pos (by decide) _

theorem spacing_pos (units : Nat) : 0 < spacing units := Nat.two_pow_pos _

theorem log2_mul_two_pow {n : Nat} (nonzero : n ≠ 0) (exponent : Nat) :
    Nat.log2 (n * 2 ^ exponent) = Nat.log2 n + exponent := by
  rw [Nat.log2_eq_iff (Nat.mul_ne_zero nonzero (Nat.two_pow_pos exponent).ne')]
  have lower : 2 ^ n.log2 ≤ n := Nat.log2_self_le nonzero
  have upper : n < 2 ^ (n.log2 + 1) := Nat.lt_log2_self
  constructor
  · rw [Nat.pow_add]
    exact Nat.mul_le_mul_right _ lower
  · rw [Nat.add_right_comm, Nat.pow_add]
    exact Nat.mul_lt_mul_of_pos_right upper (Nat.two_pow_pos exponent)

/-- A number with at most 53 binary digits stays on the grid when it is scaled up. -/
theorem spacing_dvd_mul_two_pow {n : Nat} (small : n ≤ 2 ^ 53) (exponent : Nat)
    (scaled : 52 ≤ exponent) :
    spacing (n * 2 ^ exponent) ∣ n * 2 ^ exponent := by
  by_cases zero : n = 0
  · simp [zero]
  rw [spacing, log2_mul_two_pow zero]
  rcases Nat.lt_or_eq_of_le small with below | rfl
  · have digits : n.log2 < 53 := (Nat.log2_lt zero).2 below
    have fits : n.log2 + exponent - 52 ≤ exponent := by omega
    exact Nat.dvd_mul_left_of_dvd (Nat.pow_dvd_pow 2 fits) n
  · rw [Nat.log2_two_pow, ← Nat.pow_add]
    exact Nat.pow_dvd_pow 2 (by omega)

theorem mul_two_pow_lt {n : Nat} (small : n ≤ 2 ^ 53) (exponent : Nat) :
    n * 2 ^ exponent < 2 ^ (exponent + 54) := by
  have positive : 0 < 2 ^ exponent := Nat.two_pow_pos exponent
  calc
    n * 2 ^ exponent ≤ 2 ^ 53 * 2 ^ exponent := Nat.mul_le_mul_right _ small
    _ < 2 ^ exponent * 2 ^ 54 := by omega
    _ = 2 ^ (exponent + 54) := (Nat.pow_add 2 exponent 54).symm

/-- A scaled number with at most 53 binary digits is a magnitude. -/
theorem representable_mul_two_pow {n exponent : Nat} (small : n ≤ 2 ^ 53) (scaled : 52 ≤ exponent)
    (bounded : exponent + 54 ≤ 2098) : Representable (n * 2 ^ exponent) := by
  have below {most : Nat} (fits : exponent + 54 ≤ most) : n * 2 ^ exponent < power 2 most :=
    (mul_two_pow_lt small exponent).trans_le (Nat.pow_le_pow_right (by decide) fits)
  exact ⟨spacing_dvd_mul_two_pow small exponent scaled, below bounded⟩

theorem representable_mul_one {n : Nat} (small : n ≤ 2 ^ 53) : Representable (n * one) := by
  obtain ⟨exponent, unit, scaled, bounded⟩ := exists_one_eq
  rw [unit, power_eq]
  exact representable_mul_two_pow small (by omega) (by omega)

theorem ofUnits_of_representable (negative : Bool) {units : Nat} (fits : Representable units) :
    ofUnits negative units 1 = finite negative ⟨units, fits⟩ := by
  have exactly : roundQuotient units (1 * spacing (units / 1)) * spacing (units / 1) = units := by
    rw [Nat.div_one, Nat.one_mul, roundQuotient_of_dvd (spacing_pos units) fits.1]
    exact Nat.div_mul_cancel fits.1
  simp only [ofUnits, exactly, fits, dite_true]

theorem ofInt_of_small {value : Int} (small : value.natAbs ≤ 2 ^ 53) :
    ofInt value =
      finite (decide (value < 0)) ⟨value.natAbs * one, representable_mul_one small⟩ :=
  ofUnits_of_representable _ _

theorem roundQuotient_le (numerator denominator : Nat) :
    roundQuotient numerator denominator ≤ numerator / denominator + 1 := by
  have parity : numerator / denominator % 2 < 2 := Nat.mod_lt _ (by decide)
  simp only [roundQuotient]
  split
  · omega
  · split <;> omega

/-- A scaled number is rounded to at most 53 binary digits or carries into the 54th, so that the
result lies on the grid again. -/
theorem representable_rounded {n exponent : Nat} (nonzero : n ≠ 0) (small : n.log2 < 64)
    (scaled : 104 ≤ exponent) (bounded : exponent < 2032) :
    Representable (roundQuotient (n * 2 ^ exponent) (spacing (n * 2 ^ exponent)) *
      spacing (n * 2 ^ exponent)) := by
  rw [spacing, log2_mul_two_pow nonzero]
  have rounded : roundQuotient (n * 2 ^ exponent) (2 ^ (n.log2 + exponent - 52)) ≤ 2 ^ 53 := by
    refine (roundQuotient_le _ _).trans (Nat.div_lt_of_lt_mul ?_)
    calc
      n * 2 ^ exponent < 2 ^ (n.log2 + 1) * 2 ^ exponent :=
        Nat.mul_lt_mul_of_pos_right Nat.lt_log2_self (Nat.two_pow_pos exponent)
      _ = 2 ^ (n.log2 + exponent - 52) * 2 ^ 53 := by
        rw [← Nat.pow_add, ← Nat.pow_add]
        congr 1
        omega
  exact representable_mul_two_pow rounded (by omega) (by omega)

theorem isFinite_ofUnits (negative : Bool) {numerator : Nat}
    (fits : Representable (roundQuotient numerator (spacing numerator) * spacing numerator)) :
    (ofUnits negative numerator 1).isFinite = true := by
  have shape : ofUnits negative numerator 1 = finite negative ⟨_, fits⟩ := by
    simp only [ofUnits, Nat.div_one, Nat.one_mul, fits, dite_true]
  rw [shape]
  rfl

/-- No integer of a machine word is rounded up to infinity. -/
theorem isFinite_ofInt {value : Int} (small : value.natAbs < 2 ^ 64) :
    (ofInt value).isFinite = true := by
  by_cases zero : value.natAbs = 0
  · rw [ofInt_of_small (by omega)]
    rfl
  have few : value.natAbs.log2 < 64 := (Nat.log2_lt zero).2 small
  obtain ⟨exponent, unit, scaled, bounded⟩ := exists_one_eq
  refine isFinite_ofUnits _ ?_
  rw [unit, power_eq]
  exact representable_rounded zero few scaled bounded

theorem isZero_ofInt {value : Int} (small : value.natAbs ≤ 2 ^ 53) :
    (ofInt value).isZero = decide (value = 0) := by
  have scaled : value.natAbs * one = 0 ↔ value = 0 := by
    rw [Nat.mul_eq_zero, or_iff_left one_pos.ne', Int.natAbs_eq_zero]
  rw [ofInt_of_small small, isZero, beq_eq_decide]
  exact decide_eq_decide.2 scaled

theorem wholePart_mul_one {value : Int} (fits : Representable (value.natAbs * one)) :
    wholePart (decide (value < 0)) ⟨value.natAbs * one, fits⟩ = value := by
  simp only [wholePart, Nat.mul_div_cancel _ one_pos, decide_eq_true_eq]
  split <;> omega

theorem clampTo_ofInt {value lower upper : Int} (small : value.natAbs ≤ 2 ^ 53)
    (above : lower ≤ value) (below : value ≤ upper) :
    (ofInt value).clampTo lower upper = value := by
  rw [ofInt_of_small small, clampTo, wholePart_mul_one]
  omega

theorem toInt64_ofInt {value : Int} (small : value.natAbs ≤ 2 ^ 53) :
    (ofInt value).toInt64 = Int64.ofInt value := by
  rw [toInt64, Int64.toInt_minValue, Int64.toInt_maxValue,
    clampTo_ofInt small (by omega) (by omega)]

theorem toUInt32_ofInt (value : UInt32) : (ofInt value.toNat).toUInt32 = value := by
  have bound : value.toNat < 2 ^ 32 := value.toNat_lt
  have size : UInt32.size = 2 ^ 32 := rfl
  rw [toUInt32, clampTo_ofInt (by omega) (by omega) (by omega), Int.toNat_natCast,
    UInt32.ofNat_toNat]

theorem signed_quotient (value : ℤ) {scale : ℕ} (nonzero : scale ≠ 0) :
    (if value < 0 then -(((value.natAbs * scale : ℕ) : ℚ) / scale)
      else ((value.natAbs * scale : ℕ) : ℚ) / scale) = value := by
  have magnitude : ((value.natAbs * scale : ℕ) : ℚ) / scale = (value.natAbs : ℤ) := by
    rw [Nat.cast_mul, mul_div_cancel_right₀ _ (Nat.cast_ne_zero.2 nonzero), Int.cast_natCast]
  rw [magnitude]
  split
  · rename_i negative
    rw [← Int.cast_neg, Int.ofNat_natAbs_of_nonpos negative.le, neg_neg]
  · rename_i nonnegative
    rw [Int.natAbs_of_nonneg (not_lt.1 nonnegative)]

theorem toRat_ofInt {value : Int} (small : value.natAbs ≤ 2 ^ 53) :
    (ofInt value).toRat = value := by
  rw [ofInt_of_small small]
  simp only [toRat, decide_eq_true_eq]
  exact signed_quotient value one_pos.ne'

end Double
end TriggerGraph
