import TriggerGraph.Packing.Token

/-!
# Tokens stand for the bytes they were made from

A copy is made only where the bytes at hand repeat earlier ones, so carrying it out appends exactly
those bytes.  The output is at every moment the front of the data.
-/

namespace TriggerGraph.Packing.Token

/-- A token that has a symbol: a copy is neither too short, too long nor from too far. -/
def IsCodable : Token → Prop
  | literal _ => True
  | copy length distance => 3 ≤ length ∧ length ≤ 258 ∧ 1 ≤ distance ∧ distance ≤ 32768

/-! ## Matches -/

theorem matchLength_le (data : Array UInt8) (older newer limit : Nat) :
    matchLength data older newer limit ≤ limit := by
  induction limit generalizing older newer with
  | zero => exact Nat.le_refl 0
  | succ limit ih =>
      rw [matchLength]
      split
      · exact Nat.succ_le_succ (ih _ _)
      · exact Nat.zero_le _

/-- The bytes of a match agree. -/
theorem getElem?_of_matchLength {data : Array UInt8} {older newer limit step : Nat}
    (inside : step < matchLength data older newer limit) :
    newer + step < data.size ∧ data[older + step]? = data[newer + step]? := by
  induction limit generalizing older newer step with
  | zero => cases inside
  | succ limit ih =>
      rw [matchLength] at inside
      split at inside
      · rename_i agree
        cases step with
        | zero => exact agree
        | succ step =>
            have later := ih (Nat.lt_of_succ_lt_succ inside)
            rwa [Nat.add_right_comm newer, Nat.add_right_comm older] at later
      · cases inside

/-- A copy that was found repeats the bytes a distance back. -/
theorem longestCopy_spec (data : Array UInt8) (position : Nat) (recent : List Nat)
    (found : 0 < (longestCopy data position recent).1) :
    ∃ older, older < position ∧ position - older ≤ 32768 ∧
      longestCopy data position recent =
        (matchLength data older position 258, position - older) := by
  induction recent with
  | nil => cases found
  | cons older rest ih =>
      rw [longestCopy] at found ⊢
      split at found
      · rename_i better
        rw [if_pos better]
        exact ⟨older, better.1, better.2.1, rfl⟩
      · rename_i worse
        rw [if_neg worse]
        exact ih found

/-! ## Carrying out -/

theorem toList_push_of_take {data output : Array UInt8} {position : Nat}
    (written : output.toList = data.toList.take position) {byte : UInt8}
    (next : data[position]? = some byte) :
    (output.push byte).toList = data.toList.take (position + 1) := by
  rw [Array.toList_push, written, List.take_add_one, Array.getElem?_toList, next]
  rfl

theorem byteBack_of_take {data output : Array UInt8} {position distance : Nat}
    (written : output.toList = data.toList.take position) (within : position ≤ data.size)
    (back : 1 ≤ distance) (near : distance ≤ position) :
    some (byteBack output distance) = data[position - distance]? := by
  have size : output.size = position := by
    rw [← Array.length_toList, written, List.length_take, Array.length_toList]
    omega
  have inside : position - distance < data.size := by omega
  have same : output[position - distance]? = data[position - distance]? := by
    rw [← Array.getElem?_toList, written, List.getElem?_take_of_lt (by omega),
      Array.getElem?_toList]
  rw [byteBack, size, if_pos near, Array.getD_eq_getD_getElem?, same,
    Array.getElem?_eq_getElem inside]
  rfl

/-- Carrying out a copy of bytes that agree appends them. -/
theorem appendCopy_of_take {data : Array UInt8} {distance : Nat} (back : 1 ≤ distance)
    (length : Nat) {output : Array UInt8} {position : Nat}
    (written : output.toList = data.toList.take position) (near : distance ≤ position)
    (agree : ∀ step < length, position + step < data.size ∧
      data[position - distance + step]? = data[position + step]?) :
    (appendCopy distance length output).toList = data.toList.take (position + length) := by
  induction length generalizing output position with
  | zero => exact written
  | succ length ih =>
      have here := agree 0 (Nat.succ_pos length)
      have byte := byteBack_of_take written (by omega) back near
      rw [Nat.add_zero, Nat.add_zero] at here
      have pushed := toList_push_of_take written (here.2 ▸ byte.symm)
      rw [appendCopy, ih pushed (by omega), Nat.add_right_comm, Nat.add_assoc]
      intro step less
      have later := agree (step + 1) (Nat.succ_lt_succ less)
      rw [show position + 1 - distance + step = position - distance + (step + 1) by omega,
        show position + 1 + step = position + (step + 1) by omega]
      exact later

theorem foldl_apply_cover (data : Array UInt8) (recent : List Nat) (position : Nat)
    {output : Array UInt8} (written : output.toList = data.toList.take position)
    (within : position ≤ data.size) :
    ((cover data recent position).foldl apply output).toList = data.toList ∧
      ∀ token ∈ cover data recent position, token.IsCodable := by
  fun_induction cover data recent position generalizing output with
  | case1 recent position inside length distance found later long =>
      rename_i ih
      obtain ⟨older, before, near, best⟩ := longestCopy_spec data position recent (by
        rw [found]
        exact Nat.lt_of_lt_of_le (Nat.succ_pos 2) long)
      obtain ⟨rfl, rfl⟩ := Prod.mk.inj (found.symm.trans best)
      have most := matchLength_le data older position 258
      have agree : ∀ step < matchLength data older position 258, position + step < data.size ∧
          data[position - (position - older) + step]? = data[position + step]? := by
        rw [show position - (position - older) = older by omega]
        exact fun step => getElem?_of_matchLength
      have copied := appendCopy_of_take (by omega) _ written (by omega) agree
      have last := agree (matchLength data older position 258 - 1) (by omega)
      obtain ⟨bytes, codable⟩ := ih copied (by omega)
      exact ⟨bytes, List.forall_mem_cons.2 ⟨⟨long, most, by omega, near⟩, codable⟩⟩
  | case2 recent position inside length distance found later short =>
      rename_i ih
      have pushed := toList_push_of_take written (Array.getElem?_eq_getElem inside)
      obtain ⟨bytes, codable⟩ := ih pushed inside
      exact ⟨bytes, List.forall_mem_cons.2 ⟨trivial, codable⟩⟩
  | case3 recent position ended =>
      refine ⟨?_, by simp⟩
      rw [List.foldl_nil, written, List.take_of_length_le]
      rw [Array.length_toList]
      omega

/-- The tokens of some bytes stand for these bytes. -/
theorem expand_ofBytes (bytes : List UInt8) : expand (ofBytes bytes) = bytes :=
  (foldl_apply_cover bytes.toArray [] 0 rfl (Nat.zero_le _)).1

theorem isCodable_of_mem_ofBytes {bytes : List UInt8} {token : Token}
    (member : token ∈ ofBytes bytes) : token.IsCodable :=
  (foldl_apply_cover bytes.toArray [] 0 rfl (Nat.zero_le _)).2 token member

end TriggerGraph.Packing.Token
