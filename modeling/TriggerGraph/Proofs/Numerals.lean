import TriggerGraph.Number.Reader
import TriggerGraph.Text.Split

/-!
# Numerals and cut text

Numerals are written without leading zeros and read back as the number they were written for; no
numeral contains a character that structures a level.  Text is cut by the splitting of the library,
so joined pieces come apart again.
-/

namespace TriggerGraph

/-! ## Cutting and joining -/

theorem splitAtChar_eq_splitOn (separator : Char) (text : List Char) :
    splitAtChar separator text = text.splitOn separator := by
  induction text with
  | nil => rfl
  | cons c rest ih =>
      rw [splitAtChar, List.splitOn_cons_eq_if_modifyHead, ih]
      by_cases same : c = separator
      · simp [same]
      · simp only [same, if_false, beq_iff_eq]
        cases pieces : rest.splitOn separator with
        | nil => exact absurd pieces (List.splitOn_ne_nil separator rest)
        | cons piece others => rfl

theorem joinWithChar_eq_intercalate (separator : Char) (pieces : List (List Char)) :
    joinWithChar separator pieces = [separator].intercalate pieces := by
  induction pieces with
  | nil => rfl
  | cons piece others ih =>
      cases others with
      | nil => simp [joinWithChar]
      | cons next rest => simp [joinWithChar, ih]

theorem splitAtChar_append (separator : Char) (left right : List Char) :
    splitAtChar separator (left ++ separator :: right) =
      splitAtChar separator left ++ splitAtChar separator right := by
  simp only [splitAtChar_eq_splitOn, List.splitOn_append_cons_self]

theorem splitAtChar_of_not_mem {separator : Char} {text : List Char} (free : separator ∉ text) :
    splitAtChar separator text = [text] := by
  rw [splitAtChar_eq_splitOn, List.splitOn_eq_singleton free]

theorem splitAtChar_join {separator : Char} {pieces : List (List Char)} (nonempty : pieces ≠ [])
    (free : ∀ piece ∈ pieces, separator ∉ piece) :
    splitAtChar separator (joinWithChar separator pieces) = pieces := by
  rw [splitAtChar_eq_splitOn, joinWithChar_eq_intercalate,
    List.splitOn_intercalate separator free nonempty]

theorem not_mem_of_mem_splitAtChar {separator : Char} {text piece : List Char}
    (member : piece ∈ splitAtChar separator text) : separator ∉ piece := by
  induction text generalizing piece with
  | nil => simp_all [splitAtChar]
  | cons c rest ih =>
      rw [splitAtChar] at member
      split at member
      · rcases List.mem_cons.1 member with rfl | later
        · simp
        · exact ih later
      · rename_i different
        cases pieces : splitAtChar separator rest with
        | nil =>
            rw [pieces, List.mem_singleton] at member
            simp [member, Ne.symm different]
        | cons first others =>
            rw [pieces] at member ih
            rcases List.mem_cons.1 member with rfl | later
            · simp [Ne.symm different, ih List.mem_cons_self]
            · exact ih (List.mem_cons_of_mem _ later)

theorem mem_joinWithChar {separator : Char} {pieces : List (List Char)} {c : Char}
    (member : c ∈ joinWithChar separator pieces) :
    c = separator ∨ ∃ piece ∈ pieces, c ∈ piece := by
  induction pieces with
  | nil => simp [joinWithChar] at member
  | cons piece others ih =>
      cases others with
      | nil => exact Or.inr ⟨piece, List.mem_cons_self, member⟩
      | cons next rest =>
          simp only [joinWithChar, List.mem_append, List.mem_cons] at member
          rcases member with here | rfl | later
          · exact Or.inr ⟨piece, List.mem_cons_self, here⟩
          · exact Or.inl rfl
          · rcases ih later with same | ⟨other, present, inside⟩
            · exact Or.inl same
            · exact Or.inr ⟨other, List.mem_cons_of_mem _ present, inside⟩

/-! ## Natural numbers -/

theorem digitChar_spec : ∀ digit < 10,
    isDigit (digitChar digit) = true ∧ digitValue (digitChar digit) = digit := by
  decide

theorem isDigit_of_mem_naturalText {n : Nat} {c : Char} (member : c ∈ naturalText n) :
    isDigit c = true := by
  fun_induction naturalText n with
  | case1 n small =>
      rw [List.mem_singleton] at member
      exact member ▸ (digitChar_spec n small).1
  | case2 n large ih =>
      rcases List.mem_append.1 member with front | last
      · exact ih front
      · rw [List.mem_singleton] at last
        exact last ▸ (digitChar_spec (n % 10) (Nat.mod_lt n (by decide))).1

theorem naturalText_ne_nil (n : Nat) : naturalText n ≠ [] := by
  rw [naturalText]
  split <;> simp

theorem naturalValue_append (digits : List Char) (c : Char) :
    naturalValue (digits ++ [c]) = 10 * naturalValue digits + digitValue c := by
  simp [naturalValue, List.foldl_append]

theorem naturalValue_naturalText (n : Nat) : naturalValue (naturalText n) = n := by
  fun_induction naturalText n with
  | case1 n small => simp [naturalValue, (digitChar_spec n small).2]
  | case2 n large ih =>
      rw [naturalValue_append, ih, (digitChar_spec (n % 10) (Nat.mod_lt n (by decide))).2]
      omega

theorem readNatural?_naturalText (n : Nat) : readNatural? (naturalText n) = some n := by
  have digits : (naturalText n).all isDigit = true :=
    List.all_eq_true.2 fun _ member => isDigit_of_mem_naturalText member
  simp [readNatural?, naturalText_ne_nil, digits, naturalValue_naturalText]

/-! ## Integers within their types -/

/-- A sign is not a digit, so digits alone are read without one. -/
theorem readInteger?_of_digits {text : List Char} (digits : ∀ c ∈ text, isDigit c = true) :
    readInteger? text = (readNatural? text).map fun n : Nat => (n : Int) := by
  unfold readInteger?
  split
  · exact absurd (digits '-' List.mem_cons_self) (by decide)
  · exact absurd (digits '+' List.mem_cons_self) (by decide)
  · rfl

theorem readInteger?_integerText (value : Int) : readInteger? (integerText value) = some value := by
  unfold integerText
  split
  · rename_i negative
    simp only [readInteger?, readNatural?_naturalText, Option.map_some, Option.some.injEq]
    omega
  · rename_i nonnegative
    rw [readInteger?_of_digits fun _ member => isDigit_of_mem_naturalText member,
      readNatural?_naturalText, Option.map_some, Option.some.injEq]
    omega

theorem toInt_ofNat_toNat (id : UInt32) : (Int64.ofNat id.toNat).toInt = id.toNat := by
  have bound : id.toNat < 2 ^ 32 := id.toNat_lt
  exact Int64.toInt_ofNat_of_lt (by omega)

theorem readInt64?_integerText (value : Int64) :
    readInt64? (integerText value.toInt) = some value := by
  have range : Int64.minValue.toInt ≤ value.toInt ∧ value.toInt ≤ Int64.maxValue.toInt :=
    ⟨value.minValue_le_toInt, value.toInt_le⟩
  rw [readInt64?, readInteger?_integerText, Option.bind_some, if_pos range, Int64.ofInt_toInt]

theorem readUInt32?_naturalText (value : UInt32) :
    readUInt32? (naturalText value.toNat) = some value := by
  have unsigned : ∀ rest, naturalText value.toNat ≠ '+' :: rest := by
    intro rest equal
    have plus : '+' ∈ naturalText value.toNat := equal ▸ List.mem_cons_self
    exact absurd (isDigit_of_mem_naturalText plus) (by decide)
  have bound : value.toNat < UInt32.size := value.toNat_lt_size
  unfold readUInt32?
  split
  · rename_i rest equal
    exact absurd equal (unsigned rest)
  · simp only [readNatural?_naturalText, Option.bind_some, if_pos bound, UInt32.ofNat_toNat]

/-- The characters of a written integer. -/
def isNumeric (c : Char) : Bool := c == '-' || isDigit c

theorem isNumeric_of_mem_integerText {value : Int} {c : Char} (member : c ∈ integerText value) :
    isNumeric c = true := by
  unfold integerText at member
  split at member
  · rcases List.mem_cons.1 member with rfl | digit
    · rfl
    · simp [isNumeric, isDigit_of_mem_naturalText digit]
  · simp [isNumeric, isDigit_of_mem_naturalText member]

/-- A point is neither a sign nor a digit. -/
theorem readNatural?_of_point {text : List Char} (point : '.' ∈ text) :
    readNatural? text = none := by
  have notDigits : text.all isDigit = false :=
    List.all_eq_false.2 ⟨'.', point, by decide⟩
  simp [readNatural?, notDigits]

theorem readInt64?_of_point {text : List Char} (point : '.' ∈ text) : readInt64? text = none := by
  have unread : readInteger? text = none := by
    unfold readInteger?
    split
    · simp [readNatural?_of_point (List.mem_of_ne_of_mem (by decide) point)]
    · simp [readNatural?_of_point (List.mem_of_ne_of_mem (by decide) point)]
    · simp [readNatural?_of_point point]
  simp [readInt64?, unread]

end TriggerGraph
