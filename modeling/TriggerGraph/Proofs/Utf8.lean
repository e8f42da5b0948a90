import TriggerGraph.Text.Utf8

/-!
# Text survives as bytes

A character is written in one to four bytes, and the first byte tells how many. Reading the bytes of
a character gives the character and goes on behind it, so the bytes of a text are read as that text.
-/

namespace TriggerGraph.Utf8

theorem toNat_ofNat_of_lt {n : Nat} (small : n < 256) : (UInt8.ofNat n).toNat = n := by
  rw [UInt8.toNat_ofNat']
  exact Nat.mod_eq_of_lt small

theorem le_ofNat_iff {bound : UInt8} {n : Nat} (small : n < 256) :
    bound ≤ UInt8.ofNat n ↔ bound.toNat ≤ n := by
  rw [UInt8.le_iff_toNat_le, toNat_ofNat_of_lt small]

theorem ofNat_le_iff {bound : UInt8} {n : Nat} (small : n < 256) :
    UInt8.ofNat n ≤ bound ↔ n ≤ bound.toNat := by
  rw [UInt8.le_iff_toNat_le, toNat_ofNat_of_lt small]

theorem ofNat_eq_iff {byte : UInt8} {n : Nat} (small : n < 256) :
    UInt8.ofNat n = byte ↔ n = byte.toNat := by
  rw [← UInt8.toNat_inj, toNat_ofNat_of_lt small]

/-! ## Bytes behind the first -/

theorem isContinuation_ofNat {bits : Nat} (small : bits < 64) :
    isContinuation (UInt8.ofNat (bits + 128)) = true := by
  simp only [isContinuation, Bool.and_eq_true, decide_eq_true_eq]
  rw [le_ofNat_iff (by omega), ofNat_le_iff (by omega)]
  exact ⟨Nat.le_add_left 128 bits, show bits + 128 ≤ 191 by omega⟩

theorem low_ofNat {bits : Nat} (small : bits < 64) : low (UInt8.ofNat (bits + 128)) = bits := by
  rw [low, toNat_ofNat_of_lt (by omega)]
  omega

/-- Three bytes are never used for what fits in two, nor for half of a pair. -/
theorem isSecondOfThree_ofNat {high bits : Nat} (small : bits < 64) (lead : high < 16)
    (least : high = 0 → 32 ≤ bits) (single : high = 13 → bits < 32) :
    isSecondOfThree (UInt8.ofNat (high + 224)) (UInt8.ofNat (bits + 128)) = true := by
  have first : UInt8.ofNat (high + 224) = 0xE0 ↔ high = 0 := by
    rw [ofNat_eq_iff (by omega)]
    exact Nat.add_eq_right
  have surrogates : UInt8.ofNat (high + 224) = 0xED ↔ high = 13 := by
    rw [ofNat_eq_iff (by omega)]
    exact Nat.add_left_inj (k := 13) (n := 224)
  simp only [isSecondOfThree, Bool.and_eq_true, decide_eq_true_eq, first, surrogates]
  rw [le_ofNat_iff (by omega), ofNat_le_iff (by omega)]
  constructor
  · split
    · exact show 160 ≤ bits + 128 by omega
    · exact show 128 ≤ bits + 128 by omega
  · split
    · exact show bits + 128 ≤ 159 by omega
    · exact show bits + 128 ≤ 191 by omega

/-- Four bytes are never used for what fits in three, nor for more than there are characters. -/
theorem isSecondOfFour_ofNat {high bits : Nat} (small : bits < 64) (lead : high < 8)
    (least : high = 0 → 16 ≤ bits) (most : high = 4 → bits < 16) :
    isSecondOfFour (UInt8.ofNat (high + 240)) (UInt8.ofNat (bits + 128)) = true := by
  have first : UInt8.ofNat (high + 240) = 0xF0 ↔ high = 0 := by
    rw [ofNat_eq_iff (by omega)]
    exact Nat.add_eq_right
  have last : UInt8.ofNat (high + 240) = 0xF4 ↔ high = 4 := by
    rw [ofNat_eq_iff (by omega)]
    exact Nat.add_left_inj (k := 4) (n := 240)
  simp only [isSecondOfFour, Bool.and_eq_true, decide_eq_true_eq, first, last]
  rw [le_ofNat_iff (by omega), ofNat_le_iff (by omega)]
  constructor
  · split
    · exact show 144 ≤ bits + 128 by omega
    · exact show 128 ≤ bits + 128 by omega
  · split
    · exact show bits + 128 ≤ 143 by omega
    · exact show bits + 128 ≤ 191 by omega

/-! ## Characters -/

theorem decodeFrom_one {n : Nat} (small : n < 128) (offset : Nat) (rest : List UInt8) :
    decodeFrom offset (UInt8.ofNat n :: rest) =
      (decodeFrom (offset + 1) rest).map (Char.ofNat n :: ·) := by
  have value := toNat_ofNat_of_lt (show n < 256 by omega)
  have ascii : UInt8.ofNat n < 0x80 := by
    rw [UInt8.lt_iff_toNat_lt, value]
    exact small
  rw [decodeFrom.eq_def]
  simp only [ascii, if_true, value]

theorem decodeFrom_two {high bits : Nat} (lead : high < 32) (least : 2 ≤ high) (small : bits < 64)
    (offset : Nat) (rest : List UInt8) :
    decodeFrom offset (UInt8.ofNat (high + 192) :: UInt8.ofNat (bits + 128) :: rest) =
      (decodeFrom (offset + 2) rest).map (Char.ofNat (high * 64 + bits) :: ·) := by
  have value := toNat_ofNat_of_lt (show high + 192 < 256 by omega)
  have notOne : ¬UInt8.ofNat (high + 192) < 0x80 := by
    rw [UInt8.lt_iff_toNat_lt, value]
    exact show ¬high + 192 < 128 by omega
  have two : (0xC2 ≤ UInt8.ofNat (high + 192) && UInt8.ofNat (high + 192) ≤ 0xDF) = true := by
    simp only [Bool.and_eq_true, decide_eq_true_eq]
    rw [le_ofNat_iff (by omega), ofNat_le_iff (by omega)]
    exact ⟨show 194 ≤ high + 192 by omega, show high + 192 ≤ 223 by omega⟩
  rw [decodeFrom.eq_def]
  simp only [notOne, if_false, two, if_true, isContinuation_ofNat small, low_ofNat small, value,
    Nat.add_sub_cancel]

theorem decodeFrom_three {high bits more : Nat} (lead : high < 16) (small : bits < 64)
    (least : high = 0 → 32 ≤ bits) (single : high = 13 → bits < 32) (smaller : more < 64)
    (offset : Nat) (rest : List UInt8) :
    decodeFrom offset (UInt8.ofNat (high + 224) :: UInt8.ofNat (bits + 128) ::
        UInt8.ofNat (more + 128) :: rest) =
      (decodeFrom (offset + 3) rest).map (Char.ofNat ((high * 64 + bits) * 64 + more) :: ·) := by
  have value := toNat_ofNat_of_lt (show high + 224 < 256 by omega)
  have notOne : ¬UInt8.ofNat (high + 224) < 0x80 := by
    rw [UInt8.lt_iff_toNat_lt, value]
    exact show ¬high + 224 < 128 by omega
  have notTwo : (0xC2 ≤ UInt8.ofNat (high + 224) && UInt8.ofNat (high + 224) ≤ 0xDF) = false := by
    rw [← Bool.not_eq_true, Bool.and_eq_true, decide_eq_true_eq, decide_eq_true_eq,
      ofNat_le_iff (by omega)]
    exact fun both => absurd both.2 (show ¬high + 224 ≤ 223 by omega)
  have three : (0xE0 ≤ UInt8.ofNat (high + 224) && UInt8.ofNat (high + 224) ≤ 0xEF) = true := by
    rw [Bool.and_eq_true, decide_eq_true_eq, decide_eq_true_eq, le_ofNat_iff (by omega),
      ofNat_le_iff (by omega)]
    exact ⟨show 224 ≤ high + 224 by omega, show high + 224 ≤ 239 by omega⟩
  rw [decodeFrom.eq_def]
  simp only [notOne, if_false, notTwo, Bool.false_eq_true, three, if_true,
    isSecondOfThree_ofNat small lead least single, Bool.not_true, isContinuation_ofNat smaller,
    low_ofNat small, low_ofNat smaller, value, Nat.add_sub_cancel]

theorem decodeFrom_four {high bits more last : Nat} (lead : high < 5) (small : bits < 64)
    (least : high = 0 → 16 ≤ bits) (most : high = 4 → bits < 16) (smaller : more < 64)
    (smallest : last < 64) (offset : Nat) (rest : List UInt8) :
    decodeFrom offset (UInt8.ofNat (high + 240) :: UInt8.ofNat (bits + 128) ::
        UInt8.ofNat (more + 128) :: UInt8.ofNat (last + 128) :: rest) =
      (decodeFrom (offset + 4) rest).map
        (Char.ofNat (((high * 64 + bits) * 64 + more) * 64 + last) :: ·) := by
  have value := toNat_ofNat_of_lt (show high + 240 < 256 by omega)
  have notOne : ¬UInt8.ofNat (high + 240) < 0x80 := by
    rw [UInt8.lt_iff_toNat_lt, value]
    exact show ¬high + 240 < 128 by omega
  have notTwo : (0xC2 ≤ UInt8.ofNat (high + 240) && UInt8.ofNat (high + 240) ≤ 0xDF) = false := by
    rw [← Bool.not_eq_true, Bool.and_eq_true, decide_eq_true_eq, decide_eq_true_eq,
      ofNat_le_iff (by omega)]
    exact fun both => absurd both.2 (show ¬high + 240 ≤ 223 by omega)
  have notThree : (0xE0 ≤ UInt8.ofNat (high + 240) && UInt8.ofNat (high + 240) ≤ 0xEF) = false := by
    rw [← Bool.not_eq_true, Bool.and_eq_true, decide_eq_true_eq, decide_eq_true_eq,
      ofNat_le_iff (by omega)]
    exact fun both => absurd both.2 (show ¬high + 240 ≤ 239 by omega)
  have four : (0xF0 ≤ UInt8.ofNat (high + 240) && UInt8.ofNat (high + 240) ≤ 0xF4) = true := by
    rw [Bool.and_eq_true, decide_eq_true_eq, decide_eq_true_eq, le_ofNat_iff (by omega),
      ofNat_le_iff (by omega)]
    exact ⟨show 240 ≤ high + 240 by omega, show high + 240 ≤ 244 by omega⟩
  rw [decodeFrom.eq_def]
  simp only [notOne, if_false, notTwo, notThree, Bool.false_eq_true, four, if_true,
    isSecondOfFour_ofNat small (Nat.lt_of_lt_of_le lead (by decide)) least most, Bool.not_true,
    isContinuation_ofNat smaller, isContinuation_ofNat smallest, low_ofNat small,
    low_ofNat smaller, low_ofNat smallest, value, Nat.add_sub_cancel]

theorem decodeFrom_encodeChar (c : Char) (offset : Nat) (rest : List UInt8) :
    ∃ next, decodeFrom offset (String.utf8EncodeChar c ++ rest) =
      (decodeFrom next rest).map (c :: ·) := by
  have valid : c.val.toNat < 55296 ∨ 57343 < c.val.toNat ∧ c.val.toNat < 1114112 := c.valid
  have same {n : Nat} (equal : n = c.val.toNat) : Char.ofNat n = c := by
    rw [equal]
    exact Char.ofNat_toNat c
  simp only [String.utf8EncodeChar]
  split
  · exact ⟨_, by rw [List.singleton_append, decodeFrom_one (by omega), same rfl]⟩
  · split
    · refine ⟨offset + 2, (decodeFrom_two (by omega) (by omega) (by omega) offset rest).trans ?_⟩
      rw [same (by omega)]
    · split
      · refine ⟨offset + 3, (decodeFrom_three (by omega) (by omega) (by omega) (by omega) (by omega)
          offset rest).trans ?_⟩
        rw [same (by omega)]
      · refine ⟨offset + 4, (decodeFrom_four (by omega) (by omega) (by omega) (by omega) (by omega)
          (by omega) offset rest).trans ?_⟩
        rw [same (by omega)]

theorem decodeFrom_encode (text : List Char) (offset : Nat) :
    decodeFrom offset (text.flatMap String.utf8EncodeChar) = .ok text := by
  induction text generalizing offset with
  | nil => rfl
  | cons c rest ih =>
      obtain ⟨next, read⟩ := decodeFrom_encodeChar c offset (rest.flatMap String.utf8EncodeChar)
      rw [List.flatMap_cons, read, ih next]
      rfl

/-- The bytes of a text are read as that text. -/
theorem decode_encode (text : String) : decode (encode text) = .ok text := by
  rw [decode, encode, decodeFrom_encode]
  exact congrArg Except.ok String.ofList_toList

end TriggerGraph.Utf8
