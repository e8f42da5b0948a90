import Mathlib.Data.List.DropRight
import Mathlib.Data.List.Forall2
import TriggerGraph.Proofs.Envelopes
import TriggerGraph.Proofs.Streams

/-!
# Payloads and containers in other hands

Other programs compress in other ways, leave padding off, write the other alphabet or leave blanks
and zeros behind.  A payload and a container come back from all of this as the text that was put in.
-/

namespace TriggerGraph

open Packing

/-! ## Padding that is left off -/

/-- A text that has kept its trailing padding or lost all of it. -/
def MayLosePadding {α : Type} [BEq α] (padding : α) (text shorter : List α) : Prop :=
  shorter = text ∨ shorter = text.rdropWhile (· == padding)

theorem MayLosePadding.subset {α : Type} [BEq α] {padding : α} {text shorter : List α}
    (loses : MayLosePadding padding text shorter) : shorter ⊆ text := by
  rcases loses with rfl | rfl
  · exact List.Subset.refl _
  · exact (List.rdropWhile_prefix _ _).subset

theorem rdropWhile_map {α β : Type} (f : α → β) (p : β → Bool) (list : List α) :
    (list.map f).rdropWhile p = (list.rdropWhile (p ∘ f)).map f := by
  rw [List.rdropWhile, ← List.map_reverse, List.dropWhile_map, ← List.map_reverse]
  rfl

/-- A text that is spelled in other characters loses the same padding. -/
theorem MayLosePadding.of_map {α β : Type} [BEq α] [LawfulBEq α] [BEq β] [LawfulBEq β] {f : α → β}
    (injective : Function.Injective f) (padding : α) {text : List α} {shorter : List β}
    (loses : MayLosePadding (f padding) (text.map f) shorter) :
    ∃ short, MayLosePadding padding text short ∧ shorter = short.map f := by
  rcases loses with rfl | rfl
  · exact ⟨text, .inl rfl, rfl⟩
  · have same : (· == f padding) ∘ f = (· == padding) := by
      funext x
      rw [Function.comp_apply, Bool.eq_iff_iff, beq_iff_eq, beq_iff_eq, injective.eq_iff]
    exact ⟨_, .inr rfl, by rw [rdropWhile_map, same]⟩

namespace Base64

variable {alphabet : Alphabet} (readable : alphabet.IsReadable)
include readable

theorem rdropWhile_encode (bytes : List UInt8) :
    (encode alphabet bytes).rdropWhile (· == padding) = (sixes bytes).map alphabet.symbol := by
  rw [encode_eq]
  induction missing (sixes bytes).length with
  | zero =>
      rw [List.replicate_zero, List.append_nil, List.rdropWhile_eq_self_iff]
      intro nonempty filling
      obtain ⟨value, inside, same⟩ := List.mem_map.1 (List.getLast_mem nonempty)
      rw [← same, beq_iff_eq] at filling
      exact (readable value (sixes_lt bytes value inside)).2 filling
  | succ count ih =>
      rw [List.replicate_succ', ← List.append_assoc, List.rdropWhile_concat_pos _ _ _ (by simp), ih]

/-- Bytes are read from their text whether or not it has lost its padding. -/
theorem decode_of_mayLosePadding {bytes text : List UInt8}
    (loses : MayLosePadding padding (encode alphabet bytes) text) :
    decode alphabet text = .ok bytes := by
  rcases loses with rfl | rfl
  · exact decode_encode readable bytes
  · have unpadded := decode_sixes readable bytes (Nat.zero_le _)
    rwa [List.replicate_zero, List.append_nil, ← rdropWhile_encode readable] at unpadded

end Base64

/-- Every text is read from a member with any stream that stands for its bytes. -/
theorem decompress_of_stream {data stream : List UInt8}
    (valid : Deflate.inflate stream = .ok (data, [])) :
    Gzip.decompress (Gzip.member data stream) = .ok data :=
  Gzip.decompress_member fun after => Deflate.inflate_append valid after

theorem inflate_deflate_alone (data : List UInt8) :
    Deflate.inflate (Deflate.deflate data) = .ok (data, []) := by
  have alone := Deflate.inflate_deflate data []
  rwa [List.append_nil] at alone

/-! ## Payloads -/

namespace Level

/-- A payload of a level string, compressed in any way. -/
def IsPayload (level payload : String) : Prop :=
  ∃ stream, Deflate.inflate stream = .ok (Utf8.encode level, []) ∧
    payload = asciiText (Base64.encode .urlSafe (Gzip.member (Utf8.encode level) stream))

/-- The letters and digits, two more symbols, and padding to a multiple of four. -/
def IsAddressable (payload : String) : Prop :=
  ∃ symbols count, payload.toList = symbols ++ List.replicate count '=' ∧ count ≤ 2 ∧
    (∀ c ∈ symbols, c.isAlphanum = true ∨ c = '-' ∨ c = '_') ∧ payload.toList.length % 4 = 0

/-- A payload as it may be handed on: its padding may be gone, and white space and NUL characters
may stand around it. -/
def IsHandedOn (payload text : String) : Prop :=
  ∃ before body after, text.toList = before ++ body ++ after ∧
    MayLosePadding '=' payload.toList body ∧
    ∀ c ∈ before ++ after, isBlank c = true ∨ c = Char.ofNat 0

theorem isPayload_toPayload (level : String) : IsPayload level (toPayload level) :=
  ⟨_, inflate_deflate_alone _, rfl⟩

theorem toNat_ofNat_byte (byte : UInt8) : (Char.ofNat byte.toNat).toNat = byte.toNat := by
  have small : byte.toNat < 256 := byte.toNat_lt
  rw [Char.ofNat, dif_pos (.inl (by omega))]
  rfl

theorem injective_ofNat_byte : Function.Injective fun byte : UInt8 => Char.ofNat byte.toNat := by
  intro one two same
  have equal := congrArg Char.toNat same
  rw [toNat_ofNat_byte, toNat_ofNat_byte] at equal
  exact UInt8.toNat_inj.1 equal

theorem isAddressable_asciiText (packed : List UInt8) :
    IsAddressable (asciiText (Base64.encode .urlSafe packed)) := by
  have spelled : ∀ value < 64,
      (Char.ofNat (Base64.Alphabet.urlSafe.symbol value).toNat).isAlphanum = true ∨
        Char.ofNat (Base64.Alphabet.urlSafe.symbol value).toNat = '-' ∨
        Char.ofNat (Base64.Alphabet.urlSafe.symbol value).toNat = '_' := by decide
  refine ⟨((Base64.sixes packed).map Base64.Alphabet.urlSafe.symbol).map fun byte =>
    Char.ofNat byte.toNat, Base64.missing (Base64.sixes packed).length, ?_,
    Base64.missing_sixes_le packed, ?_, ?_⟩
  · rw [asciiText, String.toList_ofList, Base64.encode_eq, List.map_append, List.map_replicate]
    rfl
  · intro c member
    rw [List.map_map] at member
    obtain ⟨value, inside, rfl⟩ := List.mem_map.1 member
    exact spelled value (Base64.sixes_lt packed value inside)
  · rw [asciiText, String.toList_ofList, List.length_map, Base64.length_encode_mod]

theorem isSurplus_iff (c : Char) : isSurplus c = true ↔ isBlank c = true ∨ c = Char.ofNat 0 := by
  have zero : c.toNat = 0 ↔ c = Char.ofNat 0 := by
    rw [← Char.toNat_inj]
    rfl
  rw [isSurplus, Bool.or_eq_true, beq_iff_eq, zero]

/-- Whatever the encoder, its payloads consist of symbols that need no quoting, and the level string
is read from them even when they have lost their padding and gained blanks at both ends. -/
theorem payload_survives_handling (level : String) :
    IsPayload level (toPayload level) ∧
    ∀ payload, IsPayload level payload →
      IsAddressable payload ∧ ∀ text, IsHandedOn payload text → ofPayload text = .ok level := by
  refine ⟨isPayload_toPayload level, ?_⟩
  rintro _ ⟨stream, valid, rfl⟩
  refine ⟨isAddressable_asciiText _, ?_⟩
  rintro text ⟨before, body, after, split, loses, surplus⟩
  simp only [← isSurplus_iff, List.forall_mem_append] at surplus
  rw [asciiText, String.toList_ofList] at loses
  obtain ⟨symbols, kept, rfl⟩ :=
    MayLosePadding.of_map injective_ofNat_byte Base64.padding loses
  have read := ofPayload_of_symbols kept.subset
    (Base64.decode_of_mayLosePadding Base64.isReadable_urlSafe kept) (decompress_of_stream valid)
    surplus.1 surplus.2
  rwa [asciiText, String.toList_ofList, ← split, String.ofList_toList] at read

/-- The payload of two characters in three bytes, not compressed at all.  It has lost its padding,
and there are blanks of several kinds around it. -/
theorem stored_payload_survives :
    IsPayload "é;" "H4sIAAAAAAAA_wEDAPz_w6k7jx9mogMAAAA=" ∧
      IsHandedOn "H4sIAAAAAAAA_wEDAPz_w6k7jx9mogMAAAA="
        "\u3000\nH4sIAAAAAAAA_wEDAPz_w6k7jx9mogMAAAA \x00" ∧
      ofPayload "\u3000\nH4sIAAAAAAAA_wEDAPz_w6k7jx9mogMAAAA \x00" = .ok "é;" := by
  have stored : IsPayload "é;" "H4sIAAAAAAAA_wEDAPz_w6k7jx9mogMAAAA=" :=
    ⟨[1, 3, 0, 252, 255, 0xC3, 0xA9, 59], by decide +kernel, by decide +kernel⟩
  have handed : IsHandedOn "H4sIAAAAAAAA_wEDAPz_w6k7jx9mogMAAAA="
      "\u3000\nH4sIAAAAAAAA_wEDAPz_w6k7jx9mogMAAAA \x00" :=
    ⟨['\u3000', '\n'], "H4sIAAAAAAAA_wEDAPz_w6k7jx9mogMAAAA".toList, [' ', Char.ofNat 0],
      by decide +kernel, .inr (by decide +kernel), by simp [isBlank]⟩
  exact ⟨stored, handed, ((payload_survives_handling "é;").2 _ stored).2 _ handed⟩

end Level

/-! ## Containers -/

namespace Container

/-- A container of a document, compressed in any way. -/
def IsContainer (document : String) (bytes : List UInt8) : Prop :=
  ∃ stream, Deflate.inflate stream = .ok (Utf8.encode document, []) ∧
    bytes = (Base64.encode .standard (Gzip.member (Utf8.encode document) stream)).map mask

/-- The same symbol under the mask, or the one that the other alphabet has in its place. -/
def IsRespelled (byte other : UInt8) : Prop :=
  other = byte ∨ byte = mask '+'.toUInt8 ∧ other = mask '-'.toUInt8 ∨
    byte = mask '/'.toUInt8 ∧ other = mask '_'.toUInt8

/-- Bytes with white space and zeros, under the mask, strewn in anywhere. -/
inductive Strewn : List UInt8 → List UInt8 → Prop where
  | nil : Strewn [] []
  | keep (byte : UInt8) {bytes strewn : List UInt8} (rest : Strewn bytes strewn) :
      Strewn (byte :: bytes) (byte :: strewn)
  | stray {byte : UInt8} (blank : isBlankByte byte = true ∨ byte = 0) {bytes strewn : List UInt8}
      (rest : Strewn bytes strewn) : Strewn bytes (mask byte :: strewn)

/-- A container as it may be handed on: with symbols of either alphabet, with or without its
padding, and with white space and zeros anywhere. -/
def IsHandedOn (written bytes : List UInt8) : Prop :=
  ∃ respelled shorter, List.Forall₂ IsRespelled written respelled ∧
    MayLosePadding (mask Base64.padding) respelled shorter ∧ Strewn shorter bytes

theorem unmask_cons (byte : UInt8) (bytes : List UInt8) :
    unmask (byte :: bytes) = unmask [byte] ++ unmask bytes := by
  rw [← List.singleton_append, unmask, List.map_append, List.filter_append, List.map_append]
  rfl

theorem unmask_of_strewn {bytes strewn : List UInt8} (scattered : Strewn bytes strewn) :
    unmask strewn = unmask bytes := by
  induction scattered with
  | nil => rfl
  | keep byte rest ih => rw [unmask_cons, ih, ← unmask_cons]
  | @stray byte blank bytes strewn rest ih =>
      have skipped : isSkipped byte = true := by
        rwa [isSkipped, Bool.or_eq_true, beq_iff_eq]
      rw [unmask_cons, ih, unmask]
      simp [mask_mask, skipped]

theorem unmask_of_respelled {written respelled : List UInt8}
    (spelled : List.Forall₂ IsRespelled written respelled) :
    unmask respelled = unmask written := by
  induction spelled with
  | nil => rfl
  | @cons byte other written respelled here rest ih =>
      have same : unmask [other] = unmask [byte] := by
        rcases here with rfl | ⟨rfl, rfl⟩ | ⟨rfl, rfl⟩
        · rfl
        · rfl
        · rfl
      rw [unmask_cons, same, ih, ← unmask_cons]

theorem respelled_dropWhile {p : UInt8 → Bool} {written respelled : List UInt8}
    (blind : ∀ byte other, IsRespelled byte other → p other = p byte)
    (spelled : List.Forall₂ IsRespelled written respelled) :
    List.Forall₂ IsRespelled (written.dropWhile p) (respelled.dropWhile p) := by
  induction spelled with
  | nil => exact .nil
  | @cons byte other written respelled here rest ih =>
      rw [List.dropWhile_cons, List.dropWhile_cons, blind byte other here]
      split
      · exact ih
      · exact .cons here rest

/-- A container loses the same padding in either spelling. -/
theorem respelled_of_mayLosePadding {written respelled shorter : List UInt8}
    (spelled : List.Forall₂ IsRespelled written respelled)
    (loses : MayLosePadding (mask Base64.padding) respelled shorter) :
    ∃ short, MayLosePadding (mask Base64.padding) written short ∧
      List.Forall₂ IsRespelled short shorter := by
  rcases loses with rfl | rfl
  · exact ⟨written, .inl rfl, spelled⟩
  · have blind (byte other : UInt8) (here : IsRespelled byte other) :
        (other == mask Base64.padding) = (byte == mask Base64.padding) := by
      rcases here with rfl | ⟨rfl, rfl⟩ | ⟨rfl, rfl⟩
      · rfl
      · rfl
      · rfl
    refine ⟨_, .inr rfl, ?_⟩
    rw [List.rdropWhile, List.rdropWhile, List.forall₂_reverse_iff]
    exact respelled_dropWhile blind (List.forall₂_reverse_iff.2 spelled)

theorem isContainer_encrypt (document : String) : IsContainer document (encrypt document) :=
  ⟨_, inflate_deflate_alone _, rfl⟩

theorem injective_mask : Function.Injective mask :=
  Function.LeftInverse.injective mask_mask

/-- Whatever the encoder, a document is read from its container even when symbols were exchanged for
those of the other alphabet, the padding was left off, and blanks were strewn in. -/
theorem container_survives_handling (document : String) :
    IsContainer document (encrypt document) ∧
    ∀ written, IsContainer document written →
      ∀ bytes, IsHandedOn written bytes → decrypt bytes = .ok document := by
  refine ⟨isContainer_encrypt document, ?_⟩
  rintro _ ⟨stream, valid, rfl⟩ bytes ⟨respelled, shorter, spelled, loses, scattered⟩
  obtain ⟨short, lost, same⟩ := respelled_of_mayLosePadding spelled loses
  obtain ⟨symbols, kept, rfl⟩ := MayLosePadding.of_map injective_mask Base64.padding lost
  have standard := Base64.forall_mem_encode .standard
    (p := fun byte => isSkipped byte = false ∧ standardSymbol byte = byte)
    (by decide) (by decide) (Gzip.member (Utf8.encode document) stream)
  have unmasked : unmask bytes = symbols := by
    rw [unmask_of_strewn scattered, unmask_of_respelled same,
      unmask_map_mask fun byte member => standard byte (kept.subset member)]
  simp only [decrypt, unmasked, Base64.decode_of_mayLosePadding Base64.isReadable_standard kept,
    decompress_of_stream valid, Utf8.decode_encode, Except.mapError, bind, Except.bind]

theorem Strewn.refl (bytes : List UInt8) : Strewn bytes bytes := by
  induction bytes with
  | nil => exact .nil
  | cons byte bytes ih => exact .keep byte ih

/-- Symbols under the mask. -/
def masked (symbols : String) : List UInt8 := symbols.toList.map fun c => mask c.toUInt8

/-- The container of a document that is not compressed at all.  Two of three symbols are those of
the other alphabet, the padding is gone, and there is a line break after the second symbol. -/
theorem stored_container_survives :
    IsContainer "<d>k</d>" (masked "H4sIAAAAAAAA/wEIAPf/PGQ+azwvZD7gJDdRCAAAAA==") ∧
      IsHandedOn (masked "H4sIAAAAAAAA/wEIAPf/PGQ+azwvZD7gJDdRCAAAAA==")
        (masked "H4\nsIAAAAAAAA_wEIAPf/PGQ-azwvZD7gJDdRCAAAAA") ∧
      decrypt (masked "H4\nsIAAAAAAAA_wEIAPf/PGQ-azwvZD7gJDdRCAAAAA") = .ok "<d>k</d>" := by
  have stored : IsContainer "<d>k</d>" (masked "H4sIAAAAAAAA/wEIAPf/PGQ+azwvZD7gJDdRCAAAAA==") :=
    ⟨[1, 8, 0, 247, 255] ++ Utf8.encode "<d>k</d>", by decide +kernel, by decide +kernel⟩
  have handed : IsHandedOn (masked "H4sIAAAAAAAA/wEIAPf/PGQ+azwvZD7gJDdRCAAAAA==")
      (masked "H4\nsIAAAAAAAA_wEIAPf/PGQ-azwvZD7gJDdRCAAAAA") := by
    refine ⟨masked "H4sIAAAAAAAA_wEIAPf/PGQ-azwvZD7gJDdRCAAAAA==",
      masked "H4sIAAAAAAAA_wEIAPf/PGQ-azwvZD7gJDdRCAAAAA", ?_, .inr (by decide +kernel),
      .keep _ (.keep _ (.stray (.inl (by decide : isBlankByte 10 = true)) (.refl _)))⟩
    unfold IsRespelled
    decide +kernel
  exact ⟨stored, handed, (container_survives_handling "<d>k</d>").2 _ stored _ handed⟩

end Container
end TriggerGraph
