import TriggerGraph.Proofs.BitStreams

/-!
# A stream ends by itself

The end of a deflate stream is marked in the stream. Whatever follows it is not looked at: reading
goes the same way with more bytes behind, and leaves these bytes where they are. So a stream that
was checked alone can be packed between other bytes.
-/

namespace TriggerGraph.Packing

/-! ## More bytes behind -/

namespace Bits

/-- The same bits with more bytes behind them. -/
def followedBy (bits : Bits) (more : List UInt8) : Bits := ⟨bits.pending, bits.bytes ++ more⟩

theorem available_le_followedBy (bits : Bits) (more : List UInt8) :
    bits.available ≤ (bits.followedBy more).available := by
  simp only [available, followedBy, List.length_append]
  omega

theorem next?_followedBy {bits rest : Bits} {bit : Bool} (read : bits.next? = some (bit, rest))
    (more : List UInt8) : (bits.followedBy more).next? = some (bit, rest.followedBy more) := by
  obtain ⟨pending, bytes⟩ := bits
  cases pending with
  | cons first pending =>
      cases read
      rfl
  | nil =>
      cases bytes with
      | nil => cases read
      | cons byte bytes =>
          cases read
          rfl

theorem take?_followedBy {count value : Nat} {bits rest : Bits}
    (read : bits.take? count = some (value, rest)) (more : List UInt8) :
    (bits.followedBy more).take? count = some (value, rest.followedBy more) := by
  induction count generalizing bits value with
  | zero =>
      cases read
      rfl
  | succ count ih =>
      rw [take?] at read ⊢
      cases here : bits.next? with
      | none => rw [here] at read; cases read
      | some step =>
          rw [here] at read
          obtain ⟨⟨high, last⟩, taken, same⟩ := Option.map_eq_some_iff.1 read
          cases same
          rw [next?_followedBy here more]
          dsimp only
          rw [ih taken]
          rfl

end Bits

/-! ## Readers -/

/-- A reader of bits. -/
abbrev Reader (α : Type) := Bits → Except StreamFault (α × Bits)

/-- What one reader finds, another finds again with any bytes behind, which it leaves there. -/
def ReadsAgain {α : Type} (read again : Reader α) : Prop :=
  ∀ ⦃bits rest : Bits⦄ ⦃value : α⦄, read bits = .ok (value, rest) →
    ∀ more : List UInt8, again (bits.followedBy more) = .ok (value, rest.followedBy more)

namespace ReadsAgain

variable {α β : Type}

theorem found (value : α) : ReadsAgain (fun bits => pure (value, bits)) fun bits =>
    pure (value, bits) := by
  rintro bits _ _ ⟨⟩ more
  rfl

theorem fault (fault : StreamFault) (again : Reader α) :
    ReadsAgain (fun _ => throw fault) again := by
  rintro bits _ _ ⟨⟩

/-- One reader after the other. -/
theorem bind {first first' : Reader α} {next next' : α × Bits → Except StreamFault (β × Bits)}
    (front : ReadsAgain first first')
    (behind : ∀ value, ReadsAgain (fun bits => next (value, bits)) fun bits =>
      next' (value, bits)) :
    ReadsAgain (fun bits => first bits >>= next) fun bits => first' bits >>= next' := by
  intro bits rest value read more
  dsimp only at read ⊢
  cases here : first bits with
  | error fault => rw [here] at read; cases read
  | ok taken =>
      rw [here] at read
      rw [front here more]
      exact behind taken.1 read more

theorem ite {condition : Prop} [Decidable condition] {one one' two two' : Reader α}
    (met : condition → ReadsAgain one one') (failed : ¬condition → ReadsAgain two two') :
    ReadsAgain (fun bits => if condition then one bits else two bits) fun bits =>
      if condition then one' bits else two' bits := by
  by_cases holds : condition
  · simp only [if_pos holds]
    exact met holds
  · simp only [if_neg holds]
    exact failed holds

theorem decodeFrom (code : Huffman) (word first index : Nat) (counts : List Nat) :
    ReadsAgain (code.decodeFrom word first index counts)
      (code.decodeFrom word first index counts) := by
  intro bits rest symbol read more
  induction counts generalizing word first index bits with
  | nil => cases read
  | cons count counts ih =>
      rw [Huffman.decodeFrom] at read ⊢
      cases here : bits.next? with
      | none => rw [here] at read; cases read
      | some step =>
          rw [here] at read
          rw [Bits.next?_followedBy here more]
          dsimp only at read ⊢
          split at read
          · rename_i inside
            cases read
            rw [if_pos inside]
          · rename_i outside
            rw [if_neg outside]
            exact ih _ _ _ read

theorem decode (code : Huffman) : ReadsAgain code.decode code.decode :=
  decodeFrom code 0 0 0 code.counts

end ReadsAgain

namespace Deflate

theorem readsAgain_takeBits (count : Nat) : ReadsAgain (takeBits count) (takeBits count) := by
  intro bits rest value read more
  rw [takeBits] at read ⊢
  cases taken : bits.take? count with
  | none => rw [taken] at read; cases read
  | some pair =>
      rw [taken] at read
      cases read
      rw [Bits.take?_followedBy taken more]

theorem readsAgain_takeRange (ranges : Ranges) (symbol : Nat) :
    ReadsAgain (takeRange ranges symbol) (takeRange ranges symbol) := by
  unfold takeRange
  cases ranges[symbol]? with
  | none => exact .fault _ _
  | some range => exact .bind (readsAgain_takeBits _) fun extra => .found _

theorem readsAgain_takeCopy (codes : Codes) (symbol : Nat) :
    ReadsAgain (takeCopy codes symbol) (takeCopy codes symbol) :=
  .bind (readsAgain_takeRange _ _) fun _ =>
    .bind (.decode codes.distances) fun _ => .bind (readsAgain_takeRange _ _) fun _ => .found _

/-- More bytes behind a block are a reason to allow for more tokens, but not to read more. -/
theorem readsAgain_takeTokens (codes : Codes) {fuel larger : Nat} (enough : fuel ≤ larger) :
    ReadsAgain (takeTokens codes fuel) (takeTokens codes larger) := by
  induction fuel generalizing larger with
  | zero => exact .fault _ _
  | succ fuel ih =>
      obtain ⟨larger, rfl⟩ := Nat.exists_eq_add_of_lt (Nat.lt_of_lt_of_le fuel.succ_pos enough)
      rw [Nat.zero_add] at enough ⊢
      have later := ih (Nat.le_of_succ_le_succ enough)
      refine .bind (.decode codes.literals) fun symbol => .ite (fun _ => .found _) fun _ => ?_
      refine .ite (fun _ => .bind (.found _) fun token => ?_) fun _ =>
        .bind (readsAgain_takeCopy _ _) fun token => ?_
      · exact .bind later fun _ => .found _
      · exact .bind later fun _ => .found _

theorem readsAgain_takeStored : ReadsAgain takeStored takeStored := by
  intro bits rest tokens read more
  obtain ⟨pending, bytes⟩ := bits
  rw [takeStored] at read ⊢
  split at read
  · rename_i a b c d behind split
    obtain rfl : bytes = a :: b :: c :: d :: behind := split
    dsimp only [Bits.followedBy, List.cons_append] at read ⊢
    split at read
    · cases read
    · rename_i checked
      split at read
      · cases read
      · rename_i long
        have inside : a.toNat + 256 * b.toNat ≤ behind.length := Nat.le_of_not_lt long
        cases read
        rw [if_neg checked, if_neg (by rw [List.length_append]; omega),
          List.take_append_of_le_length inside, List.drop_append_of_le_length inside]
        rfl
  · cases read

theorem readsAgain_takeTriples (count : Nat) :
    ReadsAgain (takeTriples count) (takeTriples count) := by
  induction count with
  | zero => exact .found _
  | succ count ih =>
      exact .bind (readsAgain_takeBits 3) fun _ => .bind ih fun _ => .found _

theorem readsAgain_takeLengths (code : Huffman) (wanted fuel : Nat) (sofar : List Nat) :
    ReadsAgain (takeLengths code wanted fuel sofar) (takeLengths code wanted fuel sofar) := by
  induction fuel generalizing sofar with
  | zero => exact .fault _ _
  | succ fuel ih =>
      refine .ite (fun _ => .found _) fun _ => .bind (.decode code) fun symbol => ?_
      refine .ite (fun _ => ih _) fun _ => .ite (fun _ => ?_) fun _ => ?_
      · cases sofar.getLast? with
        | none => exact .fault _ _
        | some previous => exact .bind (readsAgain_takeBits 2) fun _ => ih _
      · exact .bind (readsAgain_takeBits _) fun _ => ih _

theorem readsAgain_takeCodes : ReadsAgain takeCodes takeCodes := by
  unfold takeCodes
  refine .bind (readsAgain_takeBits 5) fun literals => ?_
  refine .bind (readsAgain_takeBits 5) fun distances => ?_
  refine .bind (readsAgain_takeBits 4) fun listed => .ite (fun _ => .fault _ _) fun _ => ?_
  refine .bind (readsAgain_takeTriples _) fun triples => .ite (fun _ => .fault _ _) fun _ => ?_
  refine .bind (readsAgain_takeLengths _ _ _ _) fun lengths => ?_
  exact .ite (fun _ => .fault _ _) fun _ => .ite (fun _ => .fault _ _) fun _ => .found _

/-! ## Blocks -/

/-- The tokens of a block of the given kind. -/
def readContent : (kind : Nat) → Reader (List Token)
  | 0 => takeStored
  | 1 => fun bits => takeTokens fixedCodes bits.available bits
  | 2 => fun bits => takeCodes bits >>= fun codes => takeTokens codes.1 codes.2.available codes.2
  | _ => fun _ => throw .corrupt

/-- One block: whether it is the last, and its tokens. -/
def readBlock : Reader (Bool × List Token) := fun bits => do
  let (final, bits) ← takeBits 1 bits
  let (kind, bits) ← takeBits 2 bits
  let (tokens, bits) ← readContent kind bits
  return ((final == 1, tokens), bits)

theorem takeBlock_eq (bits : Bits) :
    takeBlock bits = (readBlock bits).map fun block => (block.1.1, block.1.2, block.2) := by
  unfold takeBlock readBlock
  cases takeBits 1 bits with
  | error fault => rfl
  | ok final =>
      obtain ⟨final, bits⟩ := final
      simp only [bind, Except.bind]
      cases takeBits 2 bits with
      | error fault => rfl
      | ok kind =>
          obtain ⟨kind, bits⟩ := kind
          dsimp only
          match kind with
          | 0 =>
              change _ = Except.map _ (Except.bind (takeStored bits) _)
              cases takeStored bits <;> rfl
          | 1 =>
              change _ = Except.map _ (Except.bind (takeTokens fixedCodes bits.available bits) _)
              cases takeTokens fixedCodes bits.available bits <;> rfl
          | 2 =>
              change _ = Except.map _ (Except.bind (Except.bind (takeCodes bits) _) _)
              cases takeCodes bits with
              | error fault => rfl
              | ok codes =>
                  change Except.bind (takeTokens codes.1 _ codes.2) _ =
                    Except.map _ (Except.bind (takeTokens codes.1 _ codes.2) _)
                  cases takeTokens codes.1 codes.2.available codes.2 <;> rfl
          | kind + 3 => rfl

theorem readsAgain_takeTokens_available (codes : Codes) :
    ReadsAgain (fun bits => takeTokens codes bits.available bits) fun bits =>
      takeTokens codes bits.available bits := fun bits _ _ read more =>
  readsAgain_takeTokens codes (bits.available_le_followedBy more) read more

theorem readsAgain_readContent (kind : Nat) : ReadsAgain (readContent kind) (readContent kind) := by
  unfold readContent
  split
  · exact readsAgain_takeStored
  · exact readsAgain_takeTokens_available fixedCodes
  · exact .bind readsAgain_takeCodes readsAgain_takeTokens_available
  · exact .fault _ _

theorem readsAgain_readBlock : ReadsAgain readBlock readBlock :=
  .bind (readsAgain_takeBits 1) fun _ => .bind (readsAgain_takeBits 2) fun kind =>
    .bind (readsAgain_readContent kind) fun _ => .found _

theorem readsAgain_takeBlocks {fuel larger : Nat} (enough : fuel ≤ larger) :
    ReadsAgain (takeBlocks fuel) (takeBlocks larger) := by
  have step (fuel : Nat) : takeBlocks (fuel + 1) = fun bits => readBlock bits >>= fun block =>
      if block.1.1 = true then pure (block.1.2, block.2)
      else takeBlocks fuel block.2 >>= fun later => pure (block.1.2 ++ later.1, later.2) := by
    funext bits
    rw [takeBlocks, takeBlock_eq]
    cases readBlock bits <;> rfl
  induction fuel generalizing larger with
  | zero => exact .fault _ _
  | succ fuel ih =>
      obtain ⟨larger, rfl⟩ := Nat.exists_eq_add_of_lt (Nat.lt_of_lt_of_le fuel.succ_pos enough)
      rw [Nat.zero_add] at enough ⊢
      rw [step, step]
      apply ReadsAgain.bind readsAgain_readBlock
      rintro ⟨final, tokens⟩
      cases final with
      | true => exact .found tokens
      | false =>
          change ReadsAgain
            (fun bits => takeBlocks fuel bits >>= fun later => pure (tokens ++ later.1, later.2))
            fun bits => takeBlocks larger bits >>= fun later => pure (tokens ++ later.1, later.2)
          exact .bind (ih (Nat.le_of_succ_le_succ enough)) fun later => .found (tokens ++ later)

/-- A stream is read in the same way when more bytes follow. -/
theorem inflate_append {stream data rest : List UInt8} (read : inflate stream = .ok (data, rest))
    (more : List UInt8) : inflate (stream ++ more) = .ok (data, rest ++ more) := by
  simp only [inflate] at read ⊢
  cases taken : takeBlocks ((Bits.ofBytes stream).available + 1) (.ofBytes stream) with
  | error fault => rw [taken] at read; cases read
  | ok blocks =>
      obtain ⟨tokens, bits⟩ := blocks
      rw [taken] at read
      cases read
      have whole : Bits.ofBytes (stream ++ more) = (Bits.ofBytes stream).followedBy more := rfl
      have enough := Nat.succ_le_succ ((Bits.ofBytes stream).available_le_followedBy more)
      rw [whole, readsAgain_takeBlocks enough taken more]
      rfl

end Deflate
end TriggerGraph.Packing
