import Mathlib.Data.List.Induction
import Mathlib.Data.List.TakeWhile
import Mathlib.Tactic.Ring
import TriggerGraph.Number.Layout
import TriggerGraph.Proofs.ExactDouble
import TriggerGraph.Proofs.Numerals

/-!
# Doubles survive being written

The positional text of a double is read back as that double.  The decimal that is written reads back
because the search for it ends with one that does, a shift of the decimal point against trailing
zeros changes nothing, and the reader finds exactly the digits and the exponent that were laid out.
A whole double is written without a point.
-/

namespace TriggerGraph

/-! ## Rounding does not depend on common factors -/

theorem roundQuotient_mul_right (numerator denominator : Nat) {factor : Nat}
    (positive : 0 < factor) :
    roundQuotient (numerator * factor) (denominator * factor) =
      roundQuotient numerator denominator := by
  have less (one two : Nat) : one * factor < two * factor ↔ one < two :=
    Nat.mul_lt_mul_right positive
  simp only [roundQuotient, Nat.mul_div_mul_right _ _ positive, Nat.mul_mod_mul_right,
    ← Nat.mul_assoc, less]

theorem Double.ofUnits_mul_right (negative : Bool) (numerator denominator : Nat) {factor : Nat}
    (positive : 0 < factor) :
    ofUnits negative (numerator * factor) (denominator * factor) =
      ofUnits negative numerator denominator := by
  simp only [ofUnits, Nat.mul_div_mul_right _ _ positive, Nat.mul_right_comm denominator factor,
    roundQuotient_mul_right _ _ positive]

/-! ## The number of digits -/

theorem length_naturalText_mul_ten {n : Nat} (nonzero : n ≠ 0) :
    (naturalText (10 * n)).length = (naturalText n).length + 1 := by
  rw [naturalText, if_neg (by omega), Nat.mul_div_cancel_left n (by decide), List.length_append]
  rfl

theorem length_naturalText_le {n count : Nat} (positive : 0 < count)
    (bound : n < power 10 count) : (naturalText n).length ≤ count := by
  rw [power_eq] at bound
  induction count generalizing n with
  | zero => omega
  | succ count ih =>
      rw [naturalText]
      split
      · simp
      · rename_i large
        have bounded : n / 10 < 10 ^ count := by
          rw [Nat.pow_succ] at bound
          omega
        have more : 0 < count := by
          rcases Nat.eq_zero_or_pos count with rfl | more
          · omega
          · exact more
        have := ih more bounded
        simp only [List.length_append, List.length_singleton]
        omega

theorem lt_length_naturalText {n count : Nat} (bound : power 10 count ≤ n) :
    count < (naturalText n).length := by
  rw [power_eq] at bound
  induction count generalizing n with
  | zero => exact List.length_pos_iff.2 (naturalText_ne_nil n)
  | succ count ih =>
      rw [Nat.pow_succ] at bound
      have large : ¬n < 10 := by
        have := Nat.one_le_pow count 10 (by decide)
        omega
      rw [naturalText, if_neg large, List.length_append, List.length_singleton]
      have := ih (n := n / 10) (by omega)
      omega

/-! ## Shifting the decimal point -/

namespace Decimal

theorem toDouble_mul_ten (negative : Bool) (digits : Nat) (exponent : Int) :
    toDouble negative ⟨10 * digits, exponent⟩ = toDouble negative ⟨digits, exponent + 1⟩ := by
  by_cases zero : digits = 0
  · simp [toDouble, zero]
  have place : point ⟨10 * digits, exponent⟩ = point ⟨digits, exponent + 1⟩ := by
    simp only [point, length_naturalText_mul_ten zero]
    omega
  have scaled : 10 * digits ≠ 0 := by omega
  simp only [toDouble, place, zero, scaled, false_or]
  generalize Double.one = unit
  congr 2
  -- the exponent changes its shape where it stops being negative
  match exponent with
  | .ofNat k =>
      have next : Int.ofNat k + 1 = Int.ofNat (k + 1) := rfl
      simp only [next, power_eq, Nat.pow_succ, Nat.mul_comm 10, Nat.mul_assoc]
  | .negSucc 0 =>
      have next : Int.negSucc 0 + 1 = Int.ofNat 0 := rfl
      have cancelled := Double.ofUnits_mul_right negative (digits * unit) 1 (show 0 < 10 by decide)
      simp only [next, power_eq, Nat.pow_zero, Nat.mul_one, Nat.zero_add, Nat.pow_one]
      rw [← cancelled, Nat.one_mul, Nat.mul_comm 10, Nat.mul_right_comm]
  | .negSucc (k + 1) =>
      have next : Int.negSucc (k + 1) + 1 = Int.negSucc k := rfl
      have cancelled := Double.ofUnits_mul_right negative (digits * unit) (10 ^ (k + 1))
        (show 0 < 10 by decide)
      simp only [next, power_eq]
      rw [← cancelled, ← Nat.pow_succ, Nat.mul_comm 10, Nat.mul_right_comm]

theorem toDouble_mul_pow (negative : Bool) (digits count : Nat) (exponent : Int) :
    toDouble negative ⟨digits * 10 ^ count, exponent⟩ =
      toDouble negative ⟨digits, exponent + count⟩ := by
  induction count generalizing exponent with
  | zero => simp
  | succ count ih =>
      rw [Nat.pow_succ, ← Nat.mul_assoc, Nat.mul_comm _ 10, toDouble_mul_ten, ih]
      congr 2
      omega

theorem toDouble_trim (negative : Bool) (d : Decimal) :
    d.trim.toDouble negative = d.toDouble negative := by
  fun_induction trim d with
  | case1 d zeros ih =>
      rw [ih, ← toDouble_mul_ten, Nat.mul_div_cancel' (Nat.dvd_of_mod_eq_zero zeros.2)]
  | case2 d trimmed => rfl

theorem exponent_le_trim (d : Decimal) : d.exponent ≤ d.trim.exponent := by
  fun_induction trim d with
  | case1 d zeros ih =>
      change d.exponent + 1 ≤ _ at ih
      omega
  | case2 d trimmed => exact Int.le_refl _

theorem trim_mul_pow {digits : Nat} (nonzero : digits ≠ 0) (count : Nat) (exponent : Int) :
    trim ⟨digits * power 10 count, exponent⟩ = trim ⟨digits, exponent + count⟩ := by
  rw [power_eq]
  induction count generalizing exponent with
  | zero => simp
  | succ count ih =>
      have zeros : digits * 10 ^ (count + 1) ≠ 0 ∧ digits * 10 ^ (count + 1) % 10 = 0 := by
        refine ⟨Nat.mul_ne_zero nonzero (Nat.pow_pos (by decide)).ne', ?_⟩
        rw [Nat.pow_succ, ← Nat.mul_assoc, Nat.mul_mod_left]
      rw [trim, if_pos zeros]
      have shifted : digits * 10 ^ (count + 1) / 10 = digits * 10 ^ count := by
        rw [Nat.pow_succ, ← Nat.mul_assoc, Nat.mul_div_cancel _ (by decide)]
      simp only [shifted, ih]
      congr 2
      omega

/-- The sign does not matter for which magnitude a decimal is nearest to. -/
theorem toDouble_signed {d : Decimal} {x : Double.Magnitude}
    (nearest : d.toDouble false = .finite false x) (negative : Bool) :
    d.toDouble negative = .finite negative x := by
  have units {numerator denominator : Nat}
      (nearest : Double.ofUnits false numerator denominator = .finite false x) :
      Double.ofUnits negative numerator denominator = .finite negative x := by
    simp only [Double.ofUnits] at nearest ⊢
    split at nearest
    · rename_i fits
      cases nearest
      rw [dif_pos fits]
    · cases nearest
  unfold toDouble at nearest ⊢
  split at nearest
  · rename_i tiny
    cases nearest
    rw [if_pos tiny]
  · rename_i notTiny
    rw [if_neg notTiny]
    split at nearest
    · cases nearest
    · rename_i notHuge
      rw [if_neg notHuge]
      split at nearest
      · exact units nearest
      · exact units nearest

end Decimal

/-! ## The decimal that is written -/

namespace Double

theorem ofUnits_expansion (negative : Bool) (units places : Nat) :
    ofUnits negative (units * power 5 places * power 2 places) (power 10 places) =
      ofUnits negative units 1 := by
  have product : units * power 5 places * power 2 places = units * power 10 places := by
    simp only [power_eq]
    rw [Nat.mul_assoc, ← Nat.mul_pow]
  have cancelled := ofUnits_mul_right negative units 1 (power_pos (show 0 < 10 by decide) places)
  rw [Nat.one_mul] at cancelled
  rw [product, cancelled]

namespace Magnitude

theorem readsBack_iff {x : Magnitude} {d : Decimal} :
    x.readsBack d = true ↔ d.toDouble false = .finite false x := by
  rw [readsBack, beq_iff_eq]

theorem digits_expansion (x : Magnitude) : x.expansion.digits = x.units * power 5 1074 := rfl

theorem point_expansion {x : Magnitude} (nonzero : x.units ≠ 0) :
    -330 ≤ x.expansion.point ∧ x.expansion.point ≤ 310 := by
  have upper : x.units * power 5 1074 < power 10 1383 :=
    calc
      x.units * power 5 1074 < power 2 2098 * power 5 1074 :=
        Nat.mul_lt_mul_of_pos_right x.representable.2 (power_pos (by decide) _)
      _ ≤ power 10 1383 := by decide +kernel
  have lower : power 10 750 ≤ x.units * power 5 1074 :=
    calc
      power 10 750 ≤ 1 * power 5 1074 := by decide +kernel
      _ ≤ x.units * power 5 1074 := Nat.mul_le_mul_right _ (Nat.pos_of_ne_zero nonzero)
  have most := length_naturalText_le (by decide) upper
  have least := lt_length_naturalText lower
  have exponent : x.expansion.exponent = -1074 := rfl
  rw [Decimal.point, digits_expansion, exponent]
  omega

theorem toDouble_expansion {x : Magnitude} (nonzero : x.units ≠ 0) :
    x.expansion.toDouble false = .finite false x := by
  obtain ⟨least, most⟩ := point_expansion nonzero
  have digits : x.expansion.digits ≠ 0 :=
    Nat.mul_ne_zero nonzero (power_pos (by decide) _).ne'
  rw [Decimal.toDouble, if_neg (by omega), if_neg (by omega)]
  have exact := ofUnits_of_representable false x.representable
  rw [← ofUnits_expansion false x.units 1074] at exact
  exact exact

theorem nearest?_eq_some {tie : Tie} {x : Magnitude} {place : Int} {d : Decimal}
    (found : x.nearest? tie place = some d) :
    d.toDouble false = .finite false x ∧ d.exponent = place := by
  rw [← readsBack_iff]
  unfold nearest? at found
  grind

theorem toDouble_search {x : Magnitude} (nonzero : x.units ≠ 0) (tie : Tie) (place : Int)
    (count : Nat) : (x.search tie place count).toDouble false = .finite false x := by
  induction count generalizing place with
  | zero => exact toDouble_expansion nonzero
  | succ count ih =>
      rw [search]
      split
      · rename_i d found
        exact (nearest?_eq_some found).1
      · exact ih (place - 1)

theorem toDouble_shortest {x : Magnitude} (nonzero : x.units ≠ 0) (tie : Tie) (negative : Bool) :
    (x.shortest tie).toDouble negative = .finite negative x := by
  rw [shortest, Decimal.toDouble_trim]
  exact Decimal.toDouble_signed (toDouble_search nonzero tie _ _) negative

/-! ## Whole numbers -/

/-- The nearest decimal without a fraction is the number itself. -/
theorem readsBack_whole {x : Magnitude} (nonzero : x.units ≠ 0) (whole : one ∣ x.units) :
    x.readsBack ⟨x.units / one, 0⟩ = true := by
  have exactly : x.units / one * one = x.units := Nat.div_mul_cancel whole
  have digits : x.units / one ≠ 0 := by
    intro zero
    rw [zero, Nat.zero_mul] at exactly
    exact nonzero exactly.symm
  have small : x.units / one < power 10 309 := by
    refine Nat.div_lt_of_lt_mul (x.representable.2.trans_le ?_)
    decide +kernel
  have most := length_naturalText_le (by decide) small
  rw [readsBack_iff, Decimal.toDouble, if_neg (by simp only [Decimal.point]; omega),
    if_neg (by simp only [Decimal.point]; omega)]
  have exact := ofUnits_of_representable false x.representable
  have same : x.units / one * power 10 0 * one = x.units := by
    rw [power_eq, Nat.pow_zero, Nat.mul_one, exactly]
  rw [← exact]
  exact congrArg (ofUnits false · 1) same

theorem nearest?_isSome_of_whole {x : Magnitude} (nonzero : x.units ≠ 0) (whole : one ∣ x.units)
    (tie : Tie) : (x.nearest? tie 0).isSome = true := by
  have below := readsBack_whole nonzero whole
  have scaled : x.scaled 0 = (x.units, one) := by
    rw [show (0 : Int) = .ofNat 0 from rfl, Magnitude.scaled, power_eq, Nat.pow_zero, Nat.mul_one]
  have exactly : x.units % one = 0 := Nat.mod_eq_zero_of_dvd whole
  simp only [nearest?, scaled, below, exactly, Nat.mul_zero, one_pos, if_true]
  split <;> simp_all

theorem exponent_trim_expansion {x : Magnitude} (nonzero : x.units ≠ 0) (whole : one ∣ x.units) :
    0 ≤ x.expansion.trim.exponent := by
  obtain ⟨digits, units⟩ := whole
  have some : digits ≠ 0 := by
    rintro rfl
    exact nonzero (by rw [units, Nat.mul_zero])
  have shifted (places : Nat) :
      power 2 places * digits * power 5 places = digits * power 10 places := by
    simp only [power_eq]
    rw [Nat.mul_comm, ← Nat.mul_assoc, ← Nat.mul_pow, Nat.mul_comm]
  have kept := Decimal.exponent_le_trim ⟨digits, -1074 + (1074 : Nat)⟩
  rw [expansion, units, one, shifted, Decimal.trim_mul_pow some]
  exact kept

theorem exponent_trim_search {x : Magnitude} (nonzero : x.units ≠ 0) (whole : one ∣ x.units)
    (tie : Tie) {place : Int} (above : 0 ≤ place) (count : Nat) :
    0 ≤ (x.search tie place count).trim.exponent := by
  induction count generalizing place with
  | zero => exact exponent_trim_expansion nonzero whole
  | succ count ih =>
      rw [search]
      split
      · rename_i d found
        have kept := d.exponent_le_trim
        rw [(nearest?_eq_some found).2] at kept
        omega
      · rename_i missed
        apply ih
        by_contra first
        obtain rfl : place = 0 := by omega
        simpa [missed] using nearest?_isSome_of_whole nonzero whole tie

theorem le_log2_of_power_dvd {units exponent : Nat} (nonzero : units ≠ 0)
    (divides : power 2 exponent ∣ units) : exponent ≤ Nat.log2 units :=
  (Nat.le_log2 nonzero).2 (Nat.le_of_dvd (Nat.pos_of_ne_zero nonzero) divides)

theorem one_le_point {x : Magnitude} (nonzero : x.units ≠ 0) (whole : one ∣ x.units) :
    1 ≤ x.point := by
  have large : 1074 ≤ Nat.log2 x.units := le_log2_of_power_dvd nonzero whole
  simp only [point]
  split <;> omega

/-- A whole number is written without a fraction. -/
theorem exponent_shortest {x : Magnitude} (nonzero : x.units ≠ 0) (whole : one ∣ x.units)
    (tie : Tie) : 0 ≤ (x.shortest tie).exponent := by
  have first := one_le_point nonzero whole
  exact exponent_trim_search nonzero whole tie (by omega) 17

end Magnitude
end Double

/-! ## Reading what was laid out -/

theorem naturalValue_append_list (front back : List Char) :
    naturalValue (front ++ back) = naturalValue front * 10 ^ back.length + naturalValue back := by
  induction back using List.reverseRecOn with
  | nil => simp [naturalValue]
  | append_singleton back c ih =>
      rw [← List.append_assoc, naturalValue_append, naturalValue_append, ih, List.length_append,
        List.length_singleton, Nat.pow_succ]
      ring

theorem naturalValue_zeros (count : Nat) : naturalValue (Double.zeros count) = 0 := by
  induction count with
  | zero => rfl
  | succ count ih =>
      rw [Double.zeros, List.replicate_succ', naturalValue_append]
      rw [Double.zeros] at ih
      rw [ih]
      rfl

theorem isDigit_of_mem_zeros {count : Nat} {c : Char} (member : c ∈ Double.zeros count) :
    isDigit c = true := by
  rw [List.eq_of_mem_replicate member]
  decide

/-- Digits without a point. -/
theorem readDecimal?_digits {text : List Char} (digits : ∀ c ∈ text, isDigit c = true)
    (nonempty : text ≠ []) : readDecimal? text = some ⟨naturalValue text, 0⟩ := by
  have taken : text.takeWhile isDigit = text := List.takeWhile_eq_self_iff.2 digits
  have dropped : text.dropWhile isDigit = [] := List.dropWhile_eq_nil_iff.2 digits
  simp [readDecimal?, taken, dropped, splitFraction, nonempty, readExponent?]

/-- Digits on both sides of a point. -/
theorem readDecimal?_point {whole fraction : List Char}
    (digits : ∀ c ∈ whole ++ fraction, isDigit c = true) (nonempty : whole ≠ []) :
    readDecimal? (whole ++ '.' :: fraction) =
      some ⟨naturalValue (whole ++ fraction), -fraction.length⟩ := by
  have front : ∀ c ∈ whole, isDigit c = true := fun c member =>
    digits c (List.mem_append_left _ member)
  have back : ∀ c ∈ fraction, isDigit c = true := fun c member =>
    digits c (List.mem_append_right _ member)
  have stop : isDigit '.' = false := by decide
  have taken : (whole ++ '.' :: fraction).takeWhile isDigit = whole := by
    rw [List.takeWhile_append_of_pos front, List.takeWhile_cons_of_neg (by simp [stop]),
      List.append_nil]
  have dropped : (whole ++ '.' :: fraction).dropWhile isDigit = '.' :: fraction := by
    rw [List.dropWhile_append_of_pos front, List.dropWhile_cons_of_neg (by simp [stop])]
  have takenBack : fraction.takeWhile isDigit = fraction := List.takeWhile_eq_self_iff.2 back
  have droppedBack : fraction.dropWhile isDigit = [] := List.dropWhile_eq_nil_iff.2 back
  simp [readDecimal?, taken, dropped, splitFraction, takenBack, droppedBack, nonempty,
    readExponent?]

namespace Double

section Layout

variable {digits : List Char} {point : Int} (numeric : ∀ c ∈ digits, isDigit c = true)
include numeric

/-- Digits that reach behind the point. -/
theorem positional_of_lt (behind : point < digits.length) :
    ∃ whole fraction, positional digits point [] = whole ++ '.' :: fraction ∧ whole ≠ [] ∧
      (∀ c ∈ whole ++ fraction, isDigit c = true) ∧
      naturalValue (whole ++ fraction) = naturalValue digits ∧
      (-fraction.length : Int) = point - digits.length := by
  unfold positional
  split
  · refine ⟨['0'], zeros point.natAbs ++ digits, rfl, by simp, fun c member => ?_, ?_, ?_⟩
    · rcases List.mem_append.1 member with front | back
      · rw [List.mem_singleton.1 front]
        decide
      · rcases List.mem_append.1 back with padding | digit
        · exact isDigit_of_mem_zeros padding
        · exact numeric c digit
    · have padding : naturalValue (['0'] ++ zeros point.natAbs) = 0 :=
        naturalValue_zeros (point.natAbs + 1)
      rw [← List.append_assoc, naturalValue_append_list, padding, Nat.zero_mul, Nat.zero_add]
    · simp only [List.length_append, zeros, List.length_replicate]
      omega
  · rw [if_pos (by omega)]
    refine ⟨digits.take point.toNat, digits.drop point.toNat, rfl, ?_, ?_, ?_, ?_⟩
    · intro empty
      have := congrArg List.length empty
      rw [List.length_take, List.length_nil] at this
      omega
    · rwa [List.take_append_drop]
    · rw [List.take_append_drop]
    · rw [List.length_drop]
      omega

/-- Digits that end before the point. -/
theorem positional_of_le (nonempty : digits ≠ []) (before : digits.length ≤ point) :
    positional digits point [] = digits ++ zeros (point.toNat - digits.length) ∧
      ∀ c ∈ positional digits point [], isDigit c = true := by
  have some := List.length_pos_iff.2 nonempty
  have laid : positional digits point [] = digits ++ zeros (point.toNat - digits.length) := by
    rw [positional, if_neg (by omega), if_neg (by omega), List.append_nil]
  refine ⟨laid, fun c member => ?_⟩
  rw [laid] at member
  rcases List.mem_append.1 member with digit | padding
  · exact numeric c digit
  · exact isDigit_of_mem_zeros padding

end Layout

/-- The integer of a sign and a magnitude. -/
def signedInt (negative : Bool) (magnitude : Nat) : Int :=
  if negative then -magnitude else magnitude

theorem ofInt_signedInt {digits : Nat} {x : Magnitude} {negative : Bool} (nonzero : x.units ≠ 0)
    (nearest : (⟨digits, 0⟩ : Decimal).toDouble negative = .finite negative x) :
    ofInt (signedInt negative digits) = .finite negative x := by
  rw [Decimal.toDouble] at nearest
  split at nearest
  · cases nearest
    exact absurd rfl nonzero
  · rename_i notTiny
    split at nearest
    · cases nearest
    · have some : digits ≠ 0 := fun zero => notTiny (.inl zero)
      have sign : decide (signedInt negative digits < 0) = negative := by
        cases negative with
        | false => simp [signedInt]
        | true => simpa [signedInt] using Nat.pos_of_ne_zero some
      have size : (signedInt negative digits).natAbs = digits := by
        cases negative <;> simp [signedInt]
      have unscaled : digits * power 10 0 = digits := by rw [power_eq, Nat.pow_zero, Nat.mul_one]
      rw [ofInt, sign, size, ← unscaled]
      exact nearest

/-- What a number that is not zero is written as: digits on both sides of a point, or digits of an
integer if there is no fraction. -/
theorem plainText_spec {x : Magnitude} (nonzero : x.units ≠ 0) (negative : Bool) :
    ∃ text, plainText (.finite negative x) = signed negative text ∧
      readUnsignedDouble? negative text = some (.finite negative x) ∧
      ((¬one ∣ x.units ∧ ∃ whole fraction, text = whole ++ '.' :: fraction ∧ whole ≠ [] ∧
          ∀ c ∈ whole ++ fraction, isDigit c = true) ∨
        text ≠ [] ∧ (∀ c ∈ text, isDigit c = true) ∧
          ofInt (signedInt negative (naturalValue text)) = .finite negative x) := by
  have nearest := Magnitude.toDouble_shortest nonzero .up negative
  have fractional := fun whole => Magnitude.exponent_shortest nonzero whole .up
  generalize written : x.shortest .up = d at nearest fractional
  have numeric : ∀ c ∈ naturalText d.digits, isDigit c = true := fun _ =>
    isDigit_of_mem_naturalText
  refine ⟨positional (naturalText d.digits) d.point [], ?_, ?_⟩
  · rw [plainText, if_neg nonzero, written]
  rcases Int.lt_or_le d.point (naturalText d.digits).length with behind | before
  · obtain ⟨whole, fraction, laid, nonempty, digits, value, length⟩ :=
      positional_of_lt numeric behind
    have exponent : d.point - (naturalText d.digits).length = d.exponent := by
      simp only [Decimal.point]
      omega
    refine ⟨?_, .inl ⟨fun isWhole => ?_, whole, fraction, laid, nonempty, digits⟩⟩
    · rw [laid, readUnsignedDouble?, readDecimal?_point digits nonempty, value,
        naturalValue_naturalText, length, exponent]
      simp only [nearest]
    · have := fractional isWhole
      simp only [Decimal.point] at behind
      omega
  · obtain ⟨laid, digits⟩ := positional_of_le numeric (naturalText_ne_nil _) before
    have value : naturalValue (positional (naturalText d.digits) d.point []) =
        d.digits * 10 ^ (d.point.toNat - (naturalText d.digits).length) := by
      rw [laid, naturalValue_append_list, naturalValue_zeros, naturalValue_naturalText, zeros,
        List.length_replicate, Nat.add_zero]
    have nonempty : positional (naturalText d.digits) d.point [] ≠ [] := by
      rw [laid]
      exact List.append_ne_nil_of_left_ne_nil (naturalText_ne_nil _) _
    have whole : (⟨naturalValue (positional (naturalText d.digits) d.point []), 0⟩ :
        Decimal).toDouble negative = .finite negative x := by
      rw [value, Decimal.toDouble_mul_pow, ← nearest]
      congr 1
      obtain ⟨digits, exponent⟩ := d
      simp only [Decimal.point] at before ⊢
      congr 1
      omega
    refine ⟨?_, .inr ⟨nonempty, digits, ofInt_signedInt nonzero whole⟩⟩
    rw [readUnsignedDouble?, readDecimal?_digits digits nonempty]
    simp only [whole]

end Double
end TriggerGraph
