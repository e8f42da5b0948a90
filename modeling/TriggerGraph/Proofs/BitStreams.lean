import Mathlib.Algebra.Group.Nat.Defs
import TriggerGraph.Packing.Deflate

/-!
# Reading bits that were written

A stream is followed bit by bit: some bits are in front of a reader if it gives them one after the
other.  Bits gathered into bytes are in front of the reader of these bytes, and what remains behind
them is less than a byte of filling and whatever follows.
-/

namespace TriggerGraph.Packing

/-! ## Numbers as bits -/

@[simp]
theorem length_lowBits (count value : Nat) : (lowBits count value).length = count := by
  induction count generalizing value with
  | zero => rfl
  | succ count ih => rw [lowBits, List.length_cons, ih]

theorem bitsValue_lowBits (count value : Nat) :
    bitsValue (lowBits count value) = value % 2 ^ count := by
  induction count generalizing value with
  | zero => simp [lowBits, bitsValue, Nat.mod_one]
  | succ count ih =>
      rw [lowBits, bitsValue, ih, Nat.pow_succ, Nat.mul_comm (2 ^ count), Nat.mod_mul]
      rcases Nat.mod_two_eq_zero_or_one value with even | odd
      · simp [even]
      · simp [odd]

theorem bitsValue_lt (bits : List Bool) : bitsValue bits < 2 ^ bits.length := by
  induction bits with
  | nil => exact Nat.one_pos
  | cons bit rest ih =>
      have : bit.toNat ≤ 1 := Bool.toNat_le bit
      rw [bitsValue, List.length_cons, Nat.pow_succ]
      omega

/-- The bits of a number that was read from bits are these bits, followed by zeros. -/
theorem lowBits_bitsValue (bits : List Bool) (count : Nat) :
    lowBits (bits.length + count) (bitsValue bits) = bits ++ List.replicate count false := by
  induction bits with
  | nil =>
      rw [List.length_nil, Nat.zero_add, List.nil_append, bitsValue]
      induction count with
      | zero => rfl
      | succ count ih =>
          rw [lowBits, List.replicate_succ, ← ih]
          rfl
  | cons bit rest ih =>
      have low : ((bit.toNat + 2 * bitsValue rest) % 2 == 1) = bit := by
        rw [Nat.add_mul_mod_self_left]
        cases bit <;> rfl
      have high : (bit.toNat + 2 * bitsValue rest) / 2 = bitsValue rest := by
        have : bit.toNat ≤ 1 := Bool.toNat_le bit
        omega
      rw [List.length_cons, Nat.add_right_comm, lowBits, bitsValue, low, high, ih,
        List.cons_append]

namespace Bits

/-! ## Bits in front of a reader -/

/-- The reader gives these bits and goes on as another one. -/
def Gives : Bits → List Bool → Bits → Prop
  | bits, [], rest => bits = rest
  | bits, bit :: front, rest => ∃ next, bits.next? = some (bit, next) ∧ next.Gives front rest

theorem gives_append {bits rest : Bits} {front back : List Bool} :
    bits.Gives (front ++ back) rest ↔
      ∃ middle, bits.Gives front middle ∧ middle.Gives back rest := by
  induction front generalizing bits with
  | nil => exact ⟨fun given => ⟨bits, rfl, given⟩, by rintro ⟨_, rfl, given⟩; exact given⟩
  | cons bit front ih =>
      constructor
      · rintro ⟨next, read, given⟩
        obtain ⟨middle, first, second⟩ := ih.1 given
        exact ⟨middle, ⟨next, read, first⟩, second⟩
      · rintro ⟨middle, ⟨next, read, first⟩, second⟩
        exact ⟨next, read, ih.2 ⟨middle, first, second⟩⟩

theorem available_of_next? {bits next : Bits} {bit : Bool} (read : bits.next? = some (bit, next)) :
    bits.available = next.available + 1 := by
  obtain ⟨pending, bytes⟩ := bits
  cases pending with
  | cons first pending =>
      cases read
      simp only [available, List.length_cons]
      omega
  | nil =>
      cases bytes with
      | nil => cases read
      | cons byte bytes =>
          cases read
          simp only [available, length_lowBits, List.length_cons, List.length_nil]
          omega

theorem Gives.available {bits rest : Bits} {front : List Bool} (given : bits.Gives front rest) :
    bits.available = front.length + rest.available := by
  induction front generalizing bits with
  | nil =>
      obtain rfl : bits = rest := given
      simp
  | cons bit front ih =>
      obtain ⟨next, read, later⟩ := given
      rw [available_of_next? read, ih later, List.length_cons, Nat.add_right_comm]

theorem Gives.take? {bits rest : Bits} {front : List Bool} (given : bits.Gives front rest) :
    bits.take? front.length = some (bitsValue front, rest) := by
  induction front generalizing bits with
  | nil =>
      obtain rfl : bits = rest := given
      rfl
  | cons bit front ih =>
      obtain ⟨next, read, later⟩ := given
      rw [List.length_cons, Bits.take?, read]
      simp only [ih later]
      rfl

theorem gives_pending (front pending : List Bool) (bytes : List UInt8) :
    Gives ⟨front ++ pending, bytes⟩ front ⟨pending, bytes⟩ := by
  induction front with
  | nil => rfl
  | cons bit front ih => exact ⟨_, rfl, ih⟩

/-- A byte gives its bits, lowest first. -/
theorem gives_byte {front filling : List Bool} {byte : UInt8} (nonempty : front ≠ [])
    (bits : lowBits 8 byte.toNat = front ++ filling) (bytes : List UInt8) :
    Gives ⟨[], byte :: bytes⟩ front ⟨filling, bytes⟩ := by
  cases front with
  | nil => exact absurd rfl nonempty
  | cons bit front =>
      obtain ⟨low, high⟩ := List.cons.inj bits
      refine ⟨⟨lowBits 7 (byte.toNat / 2), bytes⟩, by rw [next?, low], ?_⟩
      rw [high]
      exact gives_pending front filling bytes

end Bits

/-! ## Bits gathered into bytes -/

theorem lowBits_gathered {front : List Bool} (short : front.length ≤ 8) :
    lowBits 8 (UInt8.ofNat (bitsValue front)).toNat =
      front ++ List.replicate (8 - front.length) false := by
  have small : bitsValue front < 2 ^ 8 :=
    Nat.lt_of_lt_of_le (bitsValue_lt front) (Nat.pow_le_pow_right (by decide) short)
  rw [UInt8.toNat_ofNat', Nat.mod_eq_of_lt small, ← lowBits_bitsValue]
  congr 1
  omega

/-- Gathered bits are read back, and less than a byte of filling is left in front of what follows.
-/
theorem gives_gather (bits : List Bool) (after : List UInt8) :
    ∃ filling, filling.length < 8 ∧
      (Bits.ofBytes (gather bits ++ after)).Gives bits ⟨filling, after⟩ := by
  fun_induction gather bits with
  | case1 a b c d e f g h rest ih =>
      obtain ⟨filling, short, given⟩ := ih
      refine ⟨filling, short, ?_⟩
      have byte : Bits.Gives ⟨[], _ :: (gather rest ++ after)⟩ [a, b, c, d, e, f, g, h]
          ⟨[], gather rest ++ after⟩ :=
        Bits.gives_byte (by simp) (lowBits_gathered (by simp)) _
      exact Bits.gives_append.2 ⟨_, byte, given⟩
  | case2 => exact ⟨[], by simp, rfl⟩
  | case3 short long nonempty =>
      have few : short.length < 8 := by
        refine Nat.lt_of_not_le fun many => ?_
        match short, many with
        | a :: b :: c :: d :: e :: f :: g :: h :: rest, _ => exact long a b c d e f g h rest rfl
      have some : short ≠ [] := fun empty => nonempty empty
      have filled := lowBits_gathered (Nat.le_of_lt few)
      have length := List.length_pos_iff.2 some
      refine ⟨List.replicate (8 - short.length) false, ?_, Bits.gives_byte some filled after⟩
      rw [List.length_replicate]
      omega

end TriggerGraph.Packing
