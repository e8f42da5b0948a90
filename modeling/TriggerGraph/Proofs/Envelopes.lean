import TriggerGraph.Proofs.Base64
import TriggerGraph.Proofs.Inflation
import TriggerGraph.Proofs.Utf8
import TriggerGraph.Save.File

/-!
# Payloads and containers give back their texts

Both are base64 around gzip around a text.  A payload is trimmed before it is read, a container is
unmasked, sifted and moved to one alphabet: none of this touches a symbol that was written.
-/

namespace TriggerGraph

/-! ## Payloads -/

/-- Trimming takes what is around a text and leaves the text. -/
theorem trimBoth_append {drop : Char → Bool} {before text after : List Char}
    (ahead : ∀ c ∈ before, drop c = true) (kept : ∀ c ∈ text, drop c = false)
    (behind : ∀ c ∈ after, drop c = true) : trimBoth drop (before ++ text ++ after) = text := by
  have stays {text more : List Char} (nonempty : text ≠ []) (kept : ∀ c ∈ text, drop c = false) :
      (text ++ more).dropWhile drop = text ++ more := by
    cases text with
    | nil => exact absurd rfl nonempty
    | cons c rest => simp [kept c List.mem_cons_self]
  rw [trimBoth, List.append_assoc, List.dropWhile_append_of_pos ahead]
  by_cases none : text = []
  · rw [none, List.nil_append, ← List.append_nil after, List.dropWhile_append_of_pos behind]
    rfl
  · rw [stays none kept, List.reverse_append,
      List.dropWhile_append_of_pos fun c member => behind c (List.mem_reverse.1 member),
      ← List.append_nil text.reverse, stays (by simpa using none) (by simpa using kept),
      List.append_nil, List.reverse_reverse]

namespace Level

theorem encode_asciiText {bytes : List UInt8} (ascii : ∀ byte ∈ bytes, byte.toNat < 128) :
    Utf8.encode (asciiText bytes) = bytes := by
  have one : ∀ n < 128, String.utf8EncodeChar (Char.ofNat n) = [UInt8.ofNat n] := by decide
  rw [Utf8.encode, asciiText, String.toList_ofList, List.flatMap_map]
  induction bytes with
  | nil => rfl
  | cons byte bytes ih =>
      rw [List.forall_mem_cons] at ascii
      rw [List.flatMap_cons, one byte.toNat ascii.1, ih ascii.2, UInt8.ofNat_toNat,
        List.singleton_append]

section Symbols

variable {packed symbols : List UInt8} (part : symbols ⊆ Base64.encode .urlSafe packed)
include part

/-- A payload consists of symbols, which are neither white space nor NUL. -/
theorem isSurplus_of_symbols : ∀ c ∈ (asciiText symbols).toList, isSurplus c = false := by
  intro c member
  rw [asciiText, String.toList_ofList, List.mem_map] at member
  obtain ⟨byte, inside, rfl⟩ := member
  exact Base64.forall_mem_encode .urlSafe
    (p := fun byte => isSurplus (Char.ofNat byte.toNat) = false)
    (by decide) (by decide) _ byte (part inside)

/-- A level string is read from symbols that give its packed bytes, whatever is trimmed from around
them. -/
theorem ofPayload_of_symbols {level : String}
    (decoded : Base64.decode .urlSafe symbols = .ok packed)
    (unpacked : Packing.Gzip.decompress packed = .ok (Utf8.encode level))
    {before after : List Char} (ahead : ∀ c ∈ before, isSurplus c = true)
    (behind : ∀ c ∈ after, isSurplus c = true) :
    ofPayload (String.ofList (before ++ (asciiText symbols).toList ++ after)) = .ok level := by
  have ascii : ∀ byte ∈ symbols, byte.toNat < 128 := fun byte inside =>
    Base64.forall_mem_encode .urlSafe (p := fun byte => byte.toNat < 128)
      (by decide) (by decide) _ byte (part inside)
  simp only [ofPayload, String.toList_ofList,
    trimBoth_append ahead (isSurplus_of_symbols part) behind, String.ofList_toList,
    encode_asciiText ascii, decoded, unpacked, Utf8.decode_encode, Except.mapError, bind,
    Except.bind]

end Symbols

/-- A level string comes back from its payload. -/
theorem ofPayload_toPayload (level : String) : ofPayload (toPayload level) = .ok level := by
  have read := ofPayload_of_symbols (List.Subset.refl _)
    (Base64.decode_encode Base64.isReadable_urlSafe _)
    (Packing.Gzip.decompress_compress (Utf8.encode level)) (List.forall_mem_nil _)
    (List.forall_mem_nil _)
  rwa [List.nil_append, List.append_nil, String.ofList_toList] at read

end Level

/-- A payload that was written is not blank, so it is read. -/
theorem SaveFile.levelOf_toPayload (level : String) :
    levelOf (Level.toPayload level) = .ok level := by
  have visible : (Level.toPayload level).toList.all isBlank = false := by
    cases symbols : (Level.toPayload level).toList with
    | nil => simp [Level.toPayload, Level.asciiText, Packing.Gzip.compress,
        Packing.Gzip.plainHeader, Base64.encode] at symbols
    | cons c rest =>
        have kept := Level.isSurplus_of_symbols (List.Subset.refl _) c
          (symbols ▸ List.mem_cons_self)
        rw [List.all_cons, (Bool.or_eq_false_iff.1 kept).1, Bool.false_and]
  rw [levelOf, visible, if_neg Bool.false_ne_true, Level.ofPayload_toPayload]

namespace Container

/-! ## Containers -/

theorem mask_mask (byte : UInt8) : mask (mask byte) = byte := by
  rw [mask, mask, UInt8.xor_assoc, UInt8.xor_self, UInt8.xor_zero]

/-- Reading undoes the mask, and leaves the symbols of the standard alphabet alone. -/
theorem unmask_map_mask {symbols : List UInt8}
    (standard : ∀ byte ∈ symbols, isSkipped byte = false ∧ standardSymbol byte = byte) :
    unmask (symbols.map mask) = symbols := by
  have unmasked : (symbols.map mask).map mask = symbols := by
    rw [List.map_map, funext mask_mask (f := mask ∘ mask), List.map_id']
  rw [unmask, unmasked, List.filter_eq_self.2 fun byte member => by simp [(standard byte member).1],
    List.map_congr_left fun byte member => (standard byte member).2, List.map_id']

/-- A document comes back from its container. -/
theorem decrypt_encrypt (document : String) : decrypt (encrypt document) = .ok document := by
  have standard := Base64.forall_mem_encode .standard
    (p := fun byte => isSkipped byte = false ∧ standardSymbol byte = byte)
    (by decide) (by decide) (Packing.Gzip.compress (Utf8.encode document))
  simp only [decrypt, encrypt, unmask_map_mask standard,
    Base64.decode_encode Base64.isReadable_standard, Packing.Gzip.decompress_compress,
    Utf8.decode_encode, Except.mapError, bind, Except.bind]

end Container
end TriggerGraph
