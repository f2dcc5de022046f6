import RegisterVM.Proofs.Encoding.Readers

/-
  Reads through one cursor. A read takes the bytes of one number
  and moves the cursor past them, or it fails and the cursor stays
  where it is. So the bytes that a sequence of reads takes follow
  one another from where the cursor stood first, whatever fails in
  between, and all of them lie in the buffer.

  Key definitions include:
    * `Read.width`
    * `cursorAfter`
    * `consumed`

  Key theorems include:
    * `natLE_eq_ofDigits`
    * `Decoder.read_cases`
    * `Decoder.atomic_read`
    * `Decoder.consumed_readAll`
    * `Decoder.operands_little_endian`
-/

namespace RegisterVM

------------------------------------------------------------
-- Numbers In Base 256
------------------------------------------------------------

/- Bytes are the digits of their number in base 256. -/
theorem natLE_eq_ofDigits
    (bytes : List UInt8) :
    natLE bytes = Nat.ofDigits 256 (bytes.map UInt8.toNat) := by
  induction bytes with
  | nil => rfl
  | cons b rest ih =>
      rw [natLE, ih, List.map_cons, Nat.ofDigits_cons]

/- A stretch of a buffer has as many bytes as it is wide. -/
theorem Code.length_extract
    {code : Code}
    {ip width : Nat}
    (hInside : ip + width ≤ code.size) :
    (code.extract ip (ip + width)).toList.length = width := by
  rw [Array.length_toList, Array.size_extract]
  omega

------------------------------------------------------------
-- Cursors
------------------------------------------------------------

/- The number of bytes that a read takes. -/
def Read.width
    (w : Widths) : Read → Nat
  | .opcode => 1
  | .slot | .count => w.slot.toNat
  | .konst => w.konst.toNat
  | .ip => w.ip.toNat
  | .operand kind => (w.widthOf kind).toNat

/- Where a cursor stands after some reads. -/
def cursorAfter
    (ip : Nat)
    (outcomes : List (Except DecodeError ReadValue × Nat)) : Nat :=
  (outcomes.getLast?.map Prod.snd).getD ip

/-
  The positions of the bytes that reads took, in the order of the
  reads: those that the cursor passed in a read that succeeded.
-/
def consumed : Nat → List (Except DecodeError ReadValue × Nat) → List Nat
  | _, [] => []
  | ip, (.ok _, next) :: rest =>
    List.range' ip (next - ip) ++ consumed next rest
  | _, (.error _, next) :: rest => consumed next rest

theorem cursorAfter_cons
    (ip next : Nat)
    (outcome : Except DecodeError ReadValue)
    (rest : List (Except DecodeError ReadValue × Nat)) :
    cursorAfter ip ((outcome, next) :: rest) =
      cursorAfter next rest := by
  unfold cursorAfter
  cases rest with
  | nil => rfl
  | cons second rest =>
      rw [List.getLast?_cons_cons, List.getLast?_eq_some_getLast
        (List.cons_ne_nil second rest)]
      rfl

namespace Decoder

variable {decoder : Decoder} {code : Code}

/- All that is read, but for opcodes, is a little-endian number. -/
theorem read_eq_readLE
    (r : Read)
    (hNumber : r ≠ .opcode) :
    ∃ yield : Nat → ReadValue,
      decoder.read code r =
        yield <$> code.readLE (r.width decoder.widths) := by
  cases r with
  | opcode => exact absurd rfl hNumber
  | slot | count =>
      refine ⟨.number, ?_⟩
      rw [Read.width, ← readSlot_eq_readLE]
      rfl
  | konst | ip => exact ⟨.number, rfl⟩
  | operand kind =>
      refine ⟨fun value => .operand ⟨kind, value⟩, ?_⟩
      show ReadValue.operand <$> decoder.readOperand kind code = _
      rw [readOperand_eq_readLE, Functor.map_map]
      rfl

/- A read passes the bytes that it takes, or the cursor stays. -/
theorem read_cases
    (ip : Nat)
    (r : Read) :
    let next := ip + r.width decoder.widths
    (next ≤ code.size ∧
        ∃ value,
          (decoder.read code r).run ip = (.ok value, next)) ∨
      ∃ e, (decoder.read code r).run ip = (.error e, ip) := by
  intro next
  by_cases hNumber : r = .opcode
  · subst hNumber
    rw [read, Effect.run_bind, run_readOpcode]
    cases hByte : code[ip]? with
    | none => exact Or.inr ⟨_, rfl⟩
    | some byte =>
        have hInside := (Array.getElem?_eq_some_iff.mp hByte).1
        dsimp only
        cases Opcode.ofByte? byte with
        | none => exact Or.inr ⟨_, rfl⟩
        | some op => exact Or.inl ⟨hInside, _, rfl⟩
  · rcases read_eq_readLE r hNumber with ⟨yield, hRead⟩
    rw [hRead, Effect.run_map, Code.run_readLE]
    by_cases hInside : next ≤ code.size
    · rw [if_pos hInside]
      exact Or.inl ⟨hInside, _, rfl⟩
    · rw [if_neg hInside]
      exact Or.inr ⟨_, rfl⟩

/- A read that fails leaves the cursor where it is. -/
theorem atomic_read
    (decoder : Decoder)
    (code : Code)
    (r : Read) :
    (decoder.read code r).Atomic := by
  intro ip e ip' hFails
  rcases read_cases ip r with ⟨_, value, hRead⟩ | ⟨e', hRead⟩
  · rw [hFails] at hRead
    cases hRead
  · rw [hFails] at hRead
    cases hRead
    rfl

/-
  The bytes that reads take lie in the buffer and follow one
  another from the cursor on, each taken once.
-/
theorem consumed_readAll
    (reads : List Read)
    (start : Nat) :
    let outcomes := decoder.readAll code reads start
    let stop := cursorAfter start outcomes
    start ≤ stop ∧
      consumed start outcomes = List.range' start (stop - start) ∧
      ∀ p ∈ consumed start outcomes, p < code.size := by
  induction reads generalizing start with
  | nil =>
      refine ⟨Nat.le_refl start, ?_, nofun⟩
      show [] = List.range' start (start - start)
      rw [Nat.sub_self, List.range'_zero]
  | cons r rest ih =>
      rw [readAll]
      rcases read_cases start r with
        ⟨hInside, value, hRead⟩ | ⟨e, hRead⟩
      · rw [hRead]
        dsimp only
        rw [cursorAfter_cons, consumed]
        rcases ih (start + r.width decoder.widths) with
          ⟨hForward, hTaken, hBound⟩
        refine ⟨by omega, ?_, ?_⟩
        · rw [hTaken, Nat.add_sub_cancel_left, List.range'_append_1]
          congr 1
          omega
        · intro p hMem
          rcases List.mem_append.mp hMem with hFirst | hRest
          · have hPlace := List.mem_range'_1.mp hFirst
            omega
          · exact hBound p hRest
      · rw [hRead]
        dsimp only
        rw [cursorAfter_cons, consumed]
        exact ih start

end Decoder

/-
  Every strategy of valid widths reads an operand as the generic
  reader does. If as many bytes as the kind is wide lie ahead of
  the cursor, then the operand is of the kind, its value is the
  number with these bytes as digits, lowest first, which fits
  them, and the cursor moves past them; otherwise the read is cut
  off and the cursor stays, as it does whenever a read fails. So,
  whatever is read through a cursor, the bytes taken are those
  between where it stood and where it stands, each once and in
  order, and they lie in the buffer.
-/
theorem Decoder.operands_little_endian
    {w : Widths}
    (hValid : w.Valid) :
    ∃ decoder, ofWidths w = .ok decoder ∧
      (∀ (code : Code) (ip : Nat) (kind : OperandKind),
        let width := (w.widthOf kind).toNat
        let bytes := (code.extract ip (ip + width)).toList
        let value := Nat.ofDigits 256 (bytes.map UInt8.toNat)
        decoder.readOperand kind code =
            Operand.mk kind <$> code.readLE width ∧
          (ip + width ≤ code.size →
            bytes.length = width ∧ value < 256 ^ width ∧
              (decoder.readOperand kind code).run ip =
                (.ok ⟨kind, value⟩, ip + width) ∧
              ∀ rest,
                decoder.readAll code (.operand kind :: rest) ip =
                  (.ok (.operand ⟨kind, value⟩), ip + width) ::
                    decoder.readAll code rest (ip + width)) ∧
          (code.size < ip + width →
            (decoder.readOperand kind code).run ip =
                (.error (.truncated ip width), ip) ∧
              ∀ rest,
                decoder.readAll code (.operand kind :: rest) ip =
                  (.error (.truncated ip width), ip) ::
                    decoder.readAll code rest ip)) ∧
      (∀ (code : Code) (r : Read), (decoder.read code r).Atomic) ∧
      ∀ (code : Code) (reads : List Read) (start : Nat),
        let outcomes := decoder.readAll code reads start
        let stop := cursorAfter start outcomes
        start ≤ stop ∧
          consumed start outcomes =
            List.range' start (stop - start) ∧
          ∀ p ∈ consumed start outcomes, p < code.size := by
  rcases ofWidths_of_valid hValid with ⟨decoder, hDecoder, hWidths⟩
  refine ⟨decoder, hDecoder, ?_, decoder.atomic_read,
    fun code => consumed_readAll⟩
  intro code ip kind width bytes value
  have hGeneric := readOperand_eq_readLE decoder kind code
  have hRun := run_readOperand decoder kind code ip
  rw [hWidths] at hGeneric hRun
  refine ⟨hGeneric, ?_, ?_⟩
  · intro hInside
    have hLength : bytes.length = width :=
      Code.length_extract hInside
    have hValue : natLE bytes = value := natLE_eq_ofDigits bytes
    have hRead :
        (decoder.readOperand kind code).run ip =
          (.ok ⟨kind, value⟩, ip + width) := by
      rw [hRun, if_pos hInside, ← hValue]
    refine ⟨hLength, ?_, hRead, ?_⟩
    · rw [← hValue, ← hLength]
      exact natLE_lt bytes
    · intro rest
      rw [readAll, read, Effect.run_bind, hRead]
      rfl
  · intro hPast
    have hRead :
        (decoder.readOperand kind code).run ip =
          (.error (.truncated ip width), ip) := by
      rw [hRun, if_neg (Nat.not_le.mpr hPast)]
    refine ⟨hRead, ?_⟩
    intro rest
    rw [readAll, read, Effect.run_bind, hRead]

/-
  A jump target is read, a constant is cut off, and the last byte
  is a slot: three bytes are taken by the two reads that succeed.
-/
theorem Decoder.operands_little_endian_of_cut :
    let code : Code := #[0x34, 0x12, 0xff]
    let reads : List Read :=
      [.operand .ip, .operand .konst, .operand .slot]
    Widths.compact.Valid ∧
      ∃ decoder, ofWidths .compact = .ok decoder ∧
        decoder.readAll code reads 0 =
          [(.ok (.operand ⟨.ip, 0x1234⟩), 2),
            (.error (.truncated 2 2), 2),
            (.ok (.operand ⟨.slot, 0xff⟩), 3)] ∧
        consumed 0 (decoder.readAll code reads 0) = [0, 1, 2] := by
  intro code reads
  have hValid : Widths.compact.Valid := by decide
  rcases operands_little_endian hValid with
    ⟨decoder, hDecoder, hEach, _, hRun⟩
  have hTarget := (hEach code 0 .ip).2.1 (by decide)
  have hConstant := (hEach code 2 .konst).2.2 (by decide)
  have hSlot := (hEach code 2 .slot).2.1 (by decide)
  have hOutcomes :
      decoder.readAll code reads 0 =
        [(.ok (.operand ⟨.ip, 0x1234⟩), 2),
          (.error (.truncated 2 2), 2),
          (.ok (.operand ⟨.slot, 0xff⟩), 3)] := by
    rw [hTarget.2.2.2]
    show _ :: decoder.readAll code _ 2 = _
    rw [hConstant.2, hSlot.2.2.2]
    rfl
  refine ⟨hValid, decoder, hDecoder, hOutcomes, ?_⟩
  rw [(hRun code reads 0).2.1, hOutcomes]
  rfl

end RegisterVM
