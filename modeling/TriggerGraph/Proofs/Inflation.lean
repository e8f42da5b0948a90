import Mathlib.Data.List.Chain
import TriggerGraph.Packing.Gzip
import TriggerGraph.Proofs.BitStreams
import TriggerGraph.Proofs.Copies

/-!
# Inflating what was deflated

Every symbol of the fixed codes is read from its word, every copy length and distance from its
symbol and extra bits, hence every token from its bits. So the one block that is written is read as
the tokens it was written from, and these stand for the data. With the header in front and the
checksum and the length behind it, the data comes back from a gzip member.
-/

namespace TriggerGraph.Packing

/-! ## Words -/

namespace Huffman

/-- The place of a whole word among all words, by the same comparison as in reading from a stream.
-/
def placeOf? (word first index : Nat) : List Nat → List Bool → Option Nat
  | count :: counts, bit :: bits =>
      let word := 2 * word + bit.toNat
      if word < first + count then
        if bits.isEmpty then some (index + (word - first)) else none
      else placeOf? word (2 * (first + count)) (index + count) counts bits
  | _, _ => none

theorem decodeFrom_of_gives (code : Huffman) {word first index place : Nat} {counts : List Nat}
    {bits rest : Bits} {front : List Bool}
    (found : placeOf? word first index counts front = some place)
    (given : bits.Gives front rest) :
    code.decodeFrom word first index counts bits = .ok (code.symbols.getD place 0, rest) := by
  induction counts generalizing word first index front bits with
  | nil => cases front <;> cases found
  | cons count counts ih =>
      cases front with
      | nil => cases found
      | cons bit front =>
          obtain ⟨next, here, later⟩ := given
          rw [placeOf?] at found
          rw [decodeFrom, here]
          dsimp only at found ⊢
          split at found
          · rename_i inside
            rw [if_pos inside]
            split at found
            · rename_i ended
              obtain rfl := List.isEmpty_iff.1 ended
              obtain rfl : next = rest := later
              rw [Option.some.inj found]
            · cases found
          · rename_i outside
            rw [if_neg outside]
            exact ih found later

/-- The words of a run of symbols with one length follow each other. -/
theorem wordOf_run (front back : List Nat) {length count step : Nat} (inside : step < count) :
    wordOf (front ++ (List.replicate count length ++ back)) (front.length + step) =
      (lowBits length (firstWord (front ++ (List.replicate count length ++ back)) length +
        (front.count length + step))).reverse := by
  have here : (front ++ (List.replicate count length ++ back)).getD (front.length + step) 0 =
      length := by
    rw [List.getD_eq_getElem?_getD, List.getElem?_append_right (Nat.le_add_right _ _),
      Nat.add_sub_cancel_left, List.getElem?_append_left (by simpa using inside),
      List.getElem?_replicate_of_lt inside]
    rfl
  have before : ((front ++ (List.replicate count length ++ back)).take
      (front.length + step)).count length = front.count length + step := by
    rw [List.take_length_add_append, List.take_append_of_le_length (by simp; omega),
      List.take_replicate, List.count_append, List.count_replicate_self]
    omega
  rw [wordOf, here, before]

end Huffman

namespace Deflate

/-! ## The fixed codes -/

theorem counts_literals : fixedCodes.literals.counts = [0, 0, 0, 0, 0, 0, 24, 152, 112] := by
  decide +kernel

theorem symbols_literals : fixedCodes.literals.symbols.toList =
    List.range' 256 24 ++ (List.range' 0 144 ++ (List.range' 280 8 ++ List.range' 144 112)) := by
  decide +kernel

/-- The symbols of a run have words of one length that follow each other, and so do their places. -/
theorem decode_run (front before : List Nat) (start count length first : Nat)
    {back behind : List Nat} {symbol : Nat} {bits rest : Bits} (ahead : front.length = start)
    (lengths : fixedLengths = front ++ (List.replicate count length ++ back))
    (symbols : fixedCodes.literals.symbols.toList = before ++ (List.range' start count ++ behind))
    (words : Huffman.firstWord fixedLengths length + front.count length = first)
    (places : ∀ step < count, Huffman.placeOf? 0 0 0 [0, 0, 0, 0, 0, 0, 24, 152, 112]
      (lowBits length (first + step)).reverse = some (before.length + step))
    (low : start ≤ symbol) (high : symbol < start + count)
    (given : bits.Gives (Huffman.wordOf fixedLengths symbol) rest) :
    fixedCodes.literals.decode bits = .ok (symbol, rest) := by
  obtain ⟨step, rfl⟩ := Nat.exists_eq_add_of_le low
  replace high : step < count := Nat.lt_of_add_lt_add_left high
  have symbol : fixedCodes.literals.symbols.getD (before.length + step) 0 = start + step := by
    rw [Array.getD_eq_getD_getElem?, ← Array.getElem?_toList, symbols,
      List.getElem?_append_right (Nat.le_add_right _ _), Nat.add_sub_cancel_left,
      List.getElem?_append_left (by simpa using high), List.getElem?_range' high,
      Option.getD_some, Nat.one_mul]
  rw [lengths, ← ahead, Huffman.wordOf_run front back high, ← lengths, ← Nat.add_assoc, words]
    at given
  rw [Huffman.decode, counts_literals,
    Huffman.decodeFrom_of_gives _ (places step high) given, symbol]

/-- A literal, an end or a copy length is read from its word. -/
theorem decode_literal {symbol : Nat} (small : symbol < 288) {bits rest : Bits}
    (given : bits.Gives (Huffman.wordOf fixedLengths symbol) rest) :
    fixedCodes.literals.decode bits = .ok (symbol, rest) := by
  have lengths : fixedLengths = List.replicate 144 8 ++ (List.replicate 112 9 ++
      (List.replicate 24 7 ++ (List.replicate 8 8 ++ []))) := by
    rw [fixedLengths, List.append_assoc, List.append_assoc, List.append_nil]
  have symbols : fixedCodes.literals.symbols.toList = [] ++ (List.range' 256 24 ++
      (List.range' 0 144 ++ (List.range' 280 8 ++ (List.range' 144 112 ++ [])))) := by
    rw [symbols_literals, List.append_nil, List.nil_append]
  rcases Nat.lt_or_ge symbol 144 with low | low
  · exact decode_run [] (List.range' 256 24) 0 144 8 48 rfl lengths symbols
      (by decide +kernel) (by decide +kernel) (Nat.zero_le symbol) (by omega) given
  rcases Nat.lt_or_ge symbol 256 with middle | middle
  · exact decode_run (List.replicate 144 8)
      (List.range' 256 24 ++ (List.range' 0 144 ++ List.range' 280 8)) 144 112 9 400
      List.length_replicate lengths (by rw [symbols, List.append_assoc, List.append_assoc]; rfl)
      (by decide +kernel) (by decide +kernel) low (by omega) given
  rcases Nat.lt_or_ge symbol 280 with high | high
  · exact decode_run (List.replicate 144 8 ++ List.replicate 112 9) [] 256 24 7 0
      (by rw [List.length_append, List.length_replicate, List.length_replicate])
      (by rw [lengths, List.append_assoc]) symbols (by decide +kernel)
      (by decide +kernel) middle (by omega) given
  · exact decode_run (List.replicate 144 8 ++ (List.replicate 112 9 ++ List.replicate 24 7))
      (List.range' 256 24 ++ List.range' 0 144) 280 8 8 192
      (by rw [List.length_append, List.length_append, List.length_replicate,
        List.length_replicate, List.length_replicate])
      (by rw [lengths, List.append_assoc, List.append_assoc])
      (by rw [symbols, List.append_assoc]; rfl) (by decide +kernel) (by decide +kernel)
      high (by omega) given

/-- A distance is read from its word. -/
theorem decode_distance {symbol : Nat} (small : symbol < 32) {bits rest : Bits}
    (given : bits.Gives (Huffman.wordOf fixedDistances symbol) rest) :
    fixedCodes.distances.decode bits = .ok (symbol, rest) := by
  have places : ∀ symbol < 32, Huffman.placeOf? 0 0 0 fixedCodes.distances.counts
      (Huffman.wordOf fixedDistances symbol) = some symbol := by decide +kernel
  have symbols : ∀ symbol < 32, fixedCodes.distances.symbols.getD symbol 0 = symbol := by
    decide +kernel
  rw [Huffman.decode, Huffman.decodeFrom_of_gives _ (places symbol small) given,
    symbols symbol small]

theorem wordOf_fixedLengths_ne_nil {symbol : Nat} (small : symbol < 288) :
    Huffman.wordOf fixedLengths symbol ≠ [] := by
  have positive : ∀ symbol < 288, 0 < fixedLengths.getD symbol 0 := by decide +kernel
  refine List.ne_nil_of_length_pos ?_
  rw [Huffman.wordOf, List.length_reverse, length_lowBits]
  exact positive symbol small

theorem literalWord_eq {symbol : Nat} (small : symbol < 288) :
    literalWord symbol = Huffman.wordOf fixedLengths symbol := by
  simp [literalWord, fixedWords, small]

/-! ## Values with extra bits -/

theorem takeBits_of_gives {bits rest : Bits} {front : List Bool} (given : bits.Gives front rest) :
    takeBits front.length bits = .ok (bitsValue front, rest) := by
  rw [takeBits, given.take?]

/-- Where no range ends before the next one begins, the symbol of a value names a range that holds
it. -/
theorem range_of_symbolFor {range : Nat × Nat} {ranges : Ranges} {value : Nat} (limit : Nat)
    (covered : (range :: ranges ++ [(limit, 0)]).IsChain fun this next : Nat × Nat =>
      next.1 ≤ this.1 + 2 ^ this.2)
    (low : range.1 ≤ value) (high : value < limit) :
    ∃ base extra, (range :: ranges)[symbolFor (range :: ranges) value]? = some (base, extra) ∧
      base ≤ value ∧ value < base + 2 ^ extra := by
  have symbol : symbolFor (range :: ranges) value =
      (ranges.takeWhile (·.1 ≤ value)).length := by
    rw [symbolFor, List.takeWhile_cons_of_pos (by simpa using low), List.length_cons,
      Nat.add_sub_cancel]
  rw [symbol]
  induction ranges generalizing range with
  | nil =>
      have last := (List.isChain_cons_cons.1 covered).1
      exact ⟨range.1, range.2, rfl, low, Nat.lt_of_lt_of_le high last⟩
  | cons next ranges ih =>
      obtain ⟨joined, later⟩ := List.isChain_cons_cons.1 covered
      by_cases beyond : next.1 ≤ value
      · rw [List.takeWhile_cons_of_pos (by simpa using beyond)]
        refine ih later beyond ?_
        rw [symbolFor, List.takeWhile_cons_of_pos (by simpa using beyond), List.length_cons,
          Nat.add_sub_cancel]
      · rw [List.takeWhile_cons_of_neg (by simpa using beyond)]
        exact ⟨range.1, range.2, rfl, low, by omega⟩

theorem takeRange_of_gives {ranges : Ranges} {value base extra : Nat} {bits rest : Bits}
    (found : ranges[symbolFor ranges value]? = some (base, extra))
    (low : base ≤ value) (high : value < base + 2 ^ extra)
    (given : bits.Gives (extraBits ranges value) rest) :
    takeRange ranges (symbolFor ranges value) bits = .ok (value, rest) := by
  have more : extraBits ranges value = lowBits extra (value - base) := by
    rw [extraBits, List.getD_eq_getElem?_getD, found]
    rfl
  have read := takeBits_of_gives given
  rw [more, length_lowBits, bitsValue_lowBits, Nat.mod_eq_of_lt (by omega)] at read
  simp only [takeRange, found, read, bind, Except.bind, pure, Except.pure]
  rw [Nat.add_sub_cancel' low]

/-! ## Tokens -/

theorem symbolFor_lt {ranges : Ranges} {value : Nat} {range : Nat × Nat}
    (found : ranges[symbolFor ranges value]? = some range) :
    symbolFor ranges value < ranges.length :=
  (List.getElem?_eq_some_iff.1 found).1

theorem range_of_length {length : Nat} (low : 3 ≤ length) (high : length ≤ 258) :
    ∃ base extra, lengthRanges[symbolFor lengthRanges length]? = some (base, extra) ∧
      base ≤ length ∧ length < base + 2 ^ extra :=
  range_of_symbolFor 259 (by decide) low (by omega)

theorem range_of_distance {distance : Nat} (low : 1 ≤ distance) (high : distance ≤ 32768) :
    ∃ base extra, distanceRanges[symbolFor distanceRanges distance]? = some (base, extra) ∧
      base ≤ distance ∧ distance < base + 2 ^ extra :=
  range_of_symbolFor 32769 (by decide) low (by omega)

theorem takeCopy_of_gives {length distance : Nat} {bits middle rest : Bits}
    (shortest : 3 ≤ length) (longest : length ≤ 258)
    (near : 1 ≤ distance) (far : distance ≤ 32768)
    (lengthBits : bits.Gives (extraBits lengthRanges length) middle)
    (distanceBits : middle.Gives
      (Huffman.wordOf fixedDistances (symbolFor distanceRanges distance) ++
        extraBits distanceRanges distance) rest) :
    takeCopy fixedCodes (257 + symbolFor lengthRanges length) bits =
      .ok (.copy length distance, rest) := by
  obtain ⟨base, extra, found, low, high⟩ := range_of_length shortest longest
  obtain ⟨base', extra', found', low', high'⟩ := range_of_distance near far
  obtain ⟨later, word, more⟩ := Bits.gives_append.1 distanceBits
  have symbol : symbolFor distanceRanges distance < 32 :=
    Nat.lt_trans (symbolFor_lt found') (by decide)
  simp only [takeCopy, Nat.add_sub_cancel_left, takeRange_of_gives found low high lengthBits,
    decode_distance symbol word, takeRange_of_gives found' low' high' more, bind, Except.bind,
    pure, Except.pure]

/-- The bits of a token begin with the word of a symbol, after which the token is read. -/
theorem takeTokens_token {token : Token} (codable : token.IsCodable) {fuel : Nat}
    {bits middle rest : Bits} {tokens : List Token} (given : bits.Gives (tokenBits token) middle)
    (later : takeTokens fixedCodes fuel middle = .ok (tokens, rest)) :
    takeTokens fixedCodes (fuel + 1) bits = .ok (token :: tokens, rest) := by
  cases token with
  | literal byte =>
      have small : byte.toNat < 256 := byte.toNat_lt
      rw [tokenBits, literalWord_eq (by omega)] at given
      have read := decode_literal (by omega) given
      simp only [takeTokens, read, bind, Except.bind, pure, Except.pure, later, small, if_true,
        if_neg (Nat.ne_of_lt small), UInt8.ofNat_toNat]
  | copy length distance =>
      obtain ⟨shortest, longest, near, far⟩ := codable
      obtain ⟨base, extra, found, low, high⟩ := range_of_length shortest longest
      have symbol : symbolFor lengthRanges length < 29 := symbolFor_lt found
      rw [tokenBits, literalWord_eq (by omega), List.append_assoc, List.append_assoc] at given
      obtain ⟨first, word, given⟩ := Bits.gives_append.1 given
      obtain ⟨second, lengthBits, distanceBits⟩ := Bits.gives_append.1 given
      have read := decode_literal (by omega) word
      have copied := takeCopy_of_gives shortest longest near far lengthBits distanceBits
      simp only [takeTokens, read, bind, Except.bind, pure, Except.pure, copied, later]
      rw [if_neg (by omega), if_neg (by omega)]

theorem tokenBits_ne_nil {token : Token} (codable : token.IsCodable) : tokenBits token ≠ [] := by
  cases token with
  | literal byte =>
      have small : byte.toNat < 256 := byte.toNat_lt
      rw [tokenBits, literalWord_eq (by omega)]
      exact wordOf_fixedLengths_ne_nil (by omega)
  | copy length distance =>
      obtain ⟨shortest, longest, near, far⟩ := codable
      obtain ⟨base, extra, found, low, high⟩ := range_of_length shortest longest
      have symbol : symbolFor lengthRanges length < 29 := symbolFor_lt found
      rw [tokenBits, literalWord_eq (by omega)]
      simp [wordOf_fixedLengths_ne_nil (show 257 + symbolFor lengthRanges length < 288 by omega)]

/-- Every bit of the tokens is reason to go on, so the number of bits bounds the tokens. -/
theorem takeTokens_of_gives {tokens : List Token} (codable : ∀ token ∈ tokens, token.IsCodable)
    {fuel : Nat} {bits rest : Bits}
    (given : bits.Gives (tokens.flatMap tokenBits ++ literalWord 256) rest)
    (enough : (tokens.flatMap tokenBits ++ literalWord 256).length ≤ fuel) :
    takeTokens fixedCodes fuel bits = .ok (tokens, rest) := by
  induction tokens generalizing fuel bits with
  | nil =>
      rw [List.flatMap_nil, List.nil_append, literalWord_eq (by omega)] at given enough
      have ended := List.length_pos_of_ne_nil (wordOf_fixedLengths_ne_nil (show 256 < 288 by omega))
      obtain ⟨fuel, rfl⟩ := Nat.exists_eq_add_of_lt (Nat.lt_of_lt_of_le ended enough)
      have read := decode_literal (by omega) given
      simp only [takeTokens, read, bind, Except.bind, pure, Except.pure, if_true]
  | cons token tokens ih =>
      have here := codable token List.mem_cons_self
      have long := List.length_pos_of_ne_nil (tokenBits_ne_nil here)
      rw [List.flatMap_cons, List.append_assoc] at given enough
      rw [List.length_append] at enough
      obtain ⟨middle, front, back⟩ := Bits.gives_append.1 given
      obtain ⟨fuel, rfl⟩ := Nat.exists_eq_add_of_lt (show 0 < fuel by omega)
      rw [Nat.zero_add] at enough ⊢
      refine takeTokens_token here front (ih (fun token member => ?_) back (by omega))
      exact codable token (List.mem_cons_of_mem _ member)

/-! ## Blocks -/

/-- A stream is read back, and the bytes behind it stay. -/
theorem inflate_deflate (data after : List UInt8) :
    inflate (deflate data ++ after) = .ok (data, after) := by
  obtain ⟨filling, -, given⟩ := gives_gather (true :: true :: false ::
    (Token.ofBytes data).flatMap tokenBits ++ literalWord 256) after
  obtain ⟨first, final, second, low, third, high, tokens⟩ := given
  have kept := takeTokens_of_gives (fun token => Token.isCodable_of_mem_ofBytes) tokens
    (Nat.le.intro tokens.available.symm)
  have one : takeBits 1 (Bits.ofBytes (deflate data ++ after)) = .ok (1, first) :=
    takeBits_of_gives (show Bits.Gives _ [true] first from ⟨first, final, rfl⟩)
  have two : takeBits 2 first = .ok (1, third) :=
    takeBits_of_gives (show Bits.Gives _ [true, false] third from ⟨second, low, third, high, rfl⟩)
  have block : takeBlock (Bits.ofBytes (deflate data ++ after)) =
      .ok (true, Token.ofBytes data, ⟨filling, after⟩) := by
    simp only [takeBlock, one, two, kept, bind, Except.bind, pure, Except.pure]
    rfl
  simp only [inflate, takeBlocks, block, bind, Except.bind, pure, Except.pure, if_true,
    Token.expand_ofBytes]

end Deflate

namespace Gzip

/-! ## Members -/

theorem length_littleEndian (count value : Nat) : (littleEndian count value).length = count := by
  induction count generalizing value with
  | zero => rfl
  | succ count ih => rw [littleEndian, List.length_cons, ih]

theorem littleEndianValue_littleEndian (count value : Nat) :
    littleEndianValue (littleEndian count value) = value % 256 ^ count := by
  induction count generalizing value with
  | zero => simp [littleEndian, littleEndianValue, Nat.mod_one]
  | succ count ih =>
      rw [littleEndian, littleEndianValue, ih, Nat.pow_succ, Nat.mul_comm (256 ^ count),
        Nat.mod_mul, UInt8.toNat_ofNat']

theorem takeBytes_append {front : List UInt8} {count : Nat} (length : front.length = count)
    (back : List UInt8) : takeBytes count (front ++ back) = .ok (front, back) := by
  rw [takeBytes, if_neg (by simp [length]), ← length, List.take_left, List.drop_left]

theorem skipHeader_plainHeader (rest : List UInt8) :
    skipHeader (plainHeader ++ rest) = .ok rest := by
  have fixed : takeBytes 10 (plainHeader ++ rest) = .ok (plainHeader, rest) :=
    takeBytes_append rfl rest
  simp only [skipHeader, fixed, bind, Except.bind]
  rfl

theorem littleEndianValue_checksum (data : List UInt8) :
    littleEndianValue (littleEndian 4 (Crc32.checksum data).toNat) =
      (Crc32.checksum data).toNat := by
  rw [littleEndianValue_littleEndian]
  exact Nat.mod_eq_of_lt (Crc32.checksum data).toNat_lt

/-- The member of some data with a given stream. -/
def member (data stream : List UInt8) : List UInt8 :=
  plainHeader ++ stream ++ littleEndian 4 (Crc32.checksum data).toNat ++ littleEndian 4 data.length

/-- Data is read back from every member whose stream is read as the data and ends by itself. -/
theorem decompress_member {data stream : List UInt8}
    (read : ∀ after, Deflate.inflate (stream ++ after) = .ok (data, after)) :
    decompress (member data stream) = .ok data := by
  have length : (littleEndian 4 (Crc32.checksum data).toNat).length = 4 := length_littleEndian _ _
  have trailer : takeBytes 8 (littleEndian 4 (Crc32.checksum data).toNat ++
      littleEndian 4 data.length ++ []) = .ok _ :=
    takeBytes_append (by rw [List.length_append, length, length_littleEndian]) []
  rw [List.append_nil] at trailer
  have size : littleEndianValue (littleEndian 4 data.length) = data.length % UInt32.size :=
    littleEndianValue_littleEndian 4 data.length
  simp only [decompress, member, List.append_assoc, skipHeader_plainHeader, read, trailer, bind,
    Except.bind, Except.mapError, List.take_left' length, List.drop_left' length,
    littleEndianValue_checksum, size]
  simp [pure, Except.pure]

/-- Compressed data is read back. -/
theorem decompress_compress (data : List UInt8) : decompress (compress data) = .ok data :=
  decompress_member (Deflate.inflate_deflate data)

end Gzip
end TriggerGraph.Packing
