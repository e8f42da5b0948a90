import TriggerGraph.Packing.Base64

/-!
# Base64 reads what it wrote

Bytes are cut into numbers of six bits, and the numbers are written as symbols. Reading takes the
symbols for their numbers again, with all of the padding, a part of it or none, and packs the
numbers into the bytes they were cut from.
-/

namespace TriggerGraph.Base64

/-- What reading needs of an alphabet: symbols are told apart, from each other and from padding. -/
def Alphabet.IsReadable (alphabet : Alphabet) : Prop :=
  ∀ value < 64, alphabet.value? (alphabet.symbol value) = some value ∧
    alphabet.symbol value ≠ padding

theorem isReadable_standard : Alphabet.standard.IsReadable := by
  unfold Alphabet.IsReadable
  decide

theorem isReadable_urlSafe : Alphabet.urlSafe.IsReadable := by
  unfold Alphabet.IsReadable
  decide

/-! ## Numbers of six bits -/

/-- Bytes as numbers of six bits, the last one filled up with zeros. -/
def sixes : List UInt8 → List Nat
  | [] => []
  | [a] => [a.toNat / 4, a.toNat % 4 * 16]
  | [a, b] => [a.toNat / 4, a.toNat % 4 * 16 + b.toNat / 16, b.toNat % 16 * 4]
  | a :: b :: c :: rest =>
      a.toNat / 4 :: (a.toNat % 4 * 16 + b.toNat / 16) :: (b.toNat % 16 * 4 + c.toNat / 64) ::
        c.toNat % 64 :: sixes rest

/-- How much padding fills up the last group. -/
def missing (count : Nat) : Nat := (4 - count % 4) % 4

theorem sixes_lt (bytes : List UInt8) : ∀ value ∈ sixes bytes, value < 64 := by
  fun_induction sixes bytes with
  | case1 => simp
  | case2 a =>
      have := a.toNat_lt
      simp only [List.mem_cons, List.not_mem_nil, or_false]
      omega
  | case3 a b =>
      have := a.toNat_lt
      have := b.toNat_lt
      simp only [List.mem_cons, List.not_mem_nil, or_false]
      omega
  | case4 a b c rest ih =>
      have := a.toNat_lt
      have := b.toNat_lt
      have := c.toNat_lt
      simp only [List.forall_mem_cons]
      exact ⟨by omega, by omega, by omega, by omega, ih⟩

theorem encode_eq (alphabet : Alphabet) (bytes : List UInt8) :
    encode alphabet bytes = (sixes bytes).map alphabet.symbol ++
      List.replicate (missing (sixes bytes).length) padding := by
  fun_induction sixes bytes with
  | case1 => rfl
  | case2 a => rfl
  | case3 a b => rfl
  | case4 a b c rest ih =>
      have length (count : Nat) : missing (count + 1 + 1 + 1 + 1) = missing count := by
        simp only [missing]
        omega
      simp only [encode, ih, List.map_cons, List.length_cons, length, List.cons_append]

/-- One or two bytes of padding at most fill up the last group. -/
theorem missing_sixes_le (bytes : List UInt8) : missing (sixes bytes).length ≤ 2 := by
  have number : (sixes bytes).length % 4 ≠ 1 := by
    fun_induction sixes bytes with
    | case1 | case2 | case3 => simp
    | case4 a b c rest ih =>
        simp only [List.length_cons]
        omega
  simp only [missing]
  omega

theorem length_encode_mod (alphabet : Alphabet) (bytes : List UInt8) :
    (encode alphabet bytes).length % 4 = 0 := by
  rw [encode_eq, List.length_append, List.length_map, List.length_replicate]
  simp only [missing]
  omega

/-- What holds of every symbol and of padding holds of every byte that is written. -/
theorem forall_mem_encode (alphabet : Alphabet) {p : UInt8 → Prop}
    (symbols : ∀ value < 64, p (alphabet.symbol value)) (filling : p padding)
    (bytes : List UInt8) : ∀ byte ∈ encode alphabet bytes, p byte := by
  intro byte member
  rw [encode_eq, List.mem_append, List.mem_map] at member
  rcases member with ⟨value, inside, rfl⟩ | padded
  · exact symbols value (sixes_lt bytes value inside)
  · rw [List.eq_of_mem_replicate padded]
    exact filling

theorem pack_sixes (bytes : List UInt8) : pack (sixes bytes) = bytes := by
  have byte {n : Nat} {a : UInt8} (same : n = a.toNat) : UInt8.ofNat n = a := by
    rw [same, UInt8.ofNat_toNat]
  fun_induction sixes bytes with
  | case1 => rfl
  | case2 a => rw [pack, byte (a := a) (by omega)]
  | case3 a b =>
      have := b.toNat_lt
      rw [pack, byte (a := a) (by omega), byte (a := b) (by omega)]
  | case4 a b c rest ih =>
      have := b.toNat_lt
      have := c.toNat_lt
      rw [pack, byte (a := a) (by omega), byte (a := b) (by omega), byte (a := c) (by omega), ih]

/-- The last group has at least two numbers and no stray bits. -/
theorem exists_last_sixes {bytes : List UInt8} (nonempty : bytes ≠ []) :
    ∃ front last, sixes bytes = front ++ last ∧ front.length % 4 = 0 ∧ 2 ≤ last.length ∧
      last.length ≤ 4 ∧ strayBits last = 0 := by
  fun_induction sixes bytes with
  | case1 => exact absurd rfl nonempty
  | case2 a => exact ⟨[], _, rfl, rfl, by simp, by simp, by simp [strayBits]⟩
  | case3 a b => exact ⟨[], _, rfl, rfl, by simp, by simp, by simp [strayBits]⟩
  | case4 a b c rest ih =>
      by_cases none : rest = []
      · rw [none]
        exact ⟨[], _, rfl, rfl, by simp [sixes], by simp [sixes], rfl⟩
      · obtain ⟨front, last, split, whole, long, short, stray⟩ := ih none
        rw [split]
        have longer : (front.length + 1 + 1 + 1 + 1) % 4 = 0 := by omega
        exact ⟨_ :: _ :: _ :: _ :: front, last, rfl, longer, long, short, stray⟩

/-! ## Reading -/

section Reading

variable {alphabet : Alphabet} (readable : alphabet.IsReadable)
include readable

theorem readSymbols_map {values : List Nat} (small : ∀ value ∈ values, value < 64) (offset : Nat) :
    readSymbols alphabet offset (values.map alphabet.symbol) = .ok values := by
  induction values generalizing offset with
  | nil => rfl
  | cons value rest ih =>
      rw [List.forall_mem_cons] at small
      rw [List.map_cons, readSymbols, (readable value small.1).1]
      simp only [ih small.2]
      rfl

/-- The last group, with padding only behind its second symbol. -/
theorem readLast_map {values : List Nat} (small : ∀ value ∈ values, value < 64)
    (offset index count : Nat) (room : count = 0 ∨ 2 ≤ index + values.length) :
    readLast alphabet offset index (values.map alphabet.symbol ++ List.replicate count padding) =
      .ok values := by
  induction values generalizing index with
  | nil =>
      cases count with
      | zero => rfl
      | succ count =>
          have enough : ¬index < 2 := by
            simp only [List.length_nil] at room
            omega
          simp [List.replicate_succ, readLast, enough]
  | cons value rest ih =>
      rw [List.forall_mem_cons] at small
      obtain ⟨value?, apart⟩ := readable value small.1
      simp only [List.map_cons, List.cons_append, readLast, if_neg apart, value?]
      rw [ih small.2 (index + 1) (by simp only [List.length_cons] at room; omega)]
      rfl

/-- Whole groups, then a last one with at most as much padding as fills it up. -/
theorem decode_groups {front last : List Nat} (small : ∀ value ∈ front ++ last, value < 64)
    {count : Nat} (whole : front.length % 4 = 0) (long : 2 ≤ last.length)
    (room : last.length + count ≤ 4) (stray : strayBits last = 0) :
    decode alphabet (front.map alphabet.symbol ++
      (last.map alphabet.symbol ++ List.replicate count padding)) = .ok (pack (front ++ last)) := by
  have length : (front.map alphabet.symbol ++
      (last.map alphabet.symbol ++ List.replicate count padding)).length =
      front.length + (last.length + count) := by simp
  have start : (front.length + (last.length + count) - 1) / 4 * 4 = front.length := by omega
  have checked : checkLength alphabet (front.map alphabet.symbol ++
      (last.map alphabet.symbol ++ List.replicate count padding)) = .ok () := by
    unfold checkLength
    rw [length]
    split
    · rw [if_neg (by omega)]
    · rfl
  have read := readSymbols_map readable
    (fun value member => small value (List.mem_append_left last member)) 0
  have readEnd := readLast_map readable
    (fun value member => small value (List.mem_append_right front member))
    front.length 0 count (by omega)
  have enough : ¬last.length < 2 := by omega
  simp [decode, checked, length, start, read, readEnd, enough, stray, bind, Except.bind, pure,
    Except.pure]

/-- Bytes come back from their symbols, padded or not. -/
theorem decode_sixes (bytes : List UInt8) {count : Nat}
    (room : count ≤ missing (sixes bytes).length) :
    decode alphabet ((sixes bytes).map alphabet.symbol ++ List.replicate count padding) =
      .ok bytes := by
  by_cases none : bytes = []
  · subst none
    obtain rfl : count = 0 := Nat.le_zero.1 room
    simp [sixes, decode, checkLength, readSymbols, readLast, strayBits, pack, bind, Except.bind,
      pure, Except.pure]
  · obtain ⟨front, last, split, whole, long, short, stray⟩ := exists_last_sixes none
    have small := sixes_lt bytes
    have fits : last.length + count ≤ 4 := by
      rw [split, missing, List.length_append] at room
      omega
    have packed := pack_sixes bytes
    rw [split] at small packed
    rw [split, List.map_append, List.append_assoc,
      decode_groups readable small whole long fits stray, packed]

theorem decode_encode (bytes : List UInt8) :
    decode alphabet (encode alphabet bytes) = .ok bytes := by
  rw [encode_eq]
  exact decode_sixes readable bytes (Nat.le_refl _)

end Reading

end TriggerGraph.Base64
