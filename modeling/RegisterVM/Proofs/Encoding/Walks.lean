import RegisterVM.Proofs.Encoding.Listings

/-
  Walks over any bytes. A walk yields instructions that follow one
  another without a gap, and ends where the code ends or where its
  bytes are no instruction. It then yields one fault: of the byte
  there, if it is no opcode, and otherwise of the first operand
  that does not fit into what is left.

  Key definitions include:
    * `Widths.operandsLen`
    * `FaultAt`
    * `Covers`
    * `Walker.Yields`

  Key theorems include:
    * `Decoder.truncated_of_readOperands`
    * `Decoder.faultAt_of_decode`
    * `Walker.items_cover`
    * `Walker.yields_items`
    * `Decoder.instrs_cover_code`
-/

namespace RegisterVM

------------------------------------------------------------
-- Faults
------------------------------------------------------------

/- The bytes that operands of some kinds take together. -/
def Widths.operandsLen
    (w : Widths)
    (kinds : List OperandKind) : Nat :=
  (kinds.map fun kind => (w.widthOf kind).toNat).sum

theorem Widths.instrLen_eq
    (w : Widths)
    (op : Opcode) :
    w.instrLen op = w.operandsLen op.operands + 1 := by
  unfold instrLen operandsLen
  induction op.operands with
  | nil => rfl
  | cons kind kinds ih =>
      rw [List.foldr_cons, ih, List.map_cons, List.sum_cons,
        Nat.add_assoc]

/-
  The fault of the bytes at an offset. If the first of them is no
  opcode, then the fault says so; otherwise the instruction is cut
  off, and the fault names the first operand that does not fit.
-/
structure FaultAt
    (w : Widths)
    (code : Code)
    (p : Nat)
    (e : DecodeError) : Prop where
  inside : p < code.size
  unknown :
    ∀ byte, code[p]? = some byte →
      (e = .unknownOpcode p byte ↔ Opcode.ofByte? byte = none)
  truncated :
    ∀ byte op, code[p]? = some byte →
      Opcode.ofByte? byte = some op →
        code.size < p + w.instrLen op ∧
          ∃ before kind after offset needed,
            op.operands = before ++ kind :: after ∧
              offset = p + 1 + w.operandsLen before ∧
              needed = (w.widthOf kind).toNat ∧
              e = .truncated offset needed ∧
              p < offset ∧ offset ≤ code.size ∧
              code.size < offset + needed

namespace Decoder

variable {w : Widths} {decoder : Decoder} {code : Code}

/- An operand that fits is read, and another one is a fault. -/
theorem readOperand_cases
    (hWidths : decoder.widths = w)
    (kind : OperandKind)
    (ip : Nat) :
    (ip + (w.widthOf kind).toNat ≤ code.size ∧
        ∃ operand,
          (decoder.readOperand kind code).run ip =
            (.ok operand, ip + (w.widthOf kind).toNat)) ∨
      (code.size < ip + (w.widthOf kind).toNat ∧
        (decoder.readOperand kind code).run ip =
          (.error (.truncated ip (w.widthOf kind).toNat), ip)) := by
  rw [run_readOperand, hWidths]
  split
  next hFits => exact Or.inl ⟨hFits, _, rfl⟩
  next hPast => exact Or.inr ⟨Nat.not_le.mp hPast, rfl⟩

/- Reading operands fails at the first that does not fit. -/
theorem truncated_of_readOperands
    (hWidths : decoder.widths = w)
    {kinds : List OperandKind}
    {ip : Nat}
    (hInside : ip ≤ code.size)
    {e : DecodeError}
    {stop : Nat}
    (hRead :
      (decoder.readOperands code kinds).run ip =
        (.error e, stop)) :
    ∃ before kind after,
      kinds = before ++ kind :: after ∧
        ip + w.operandsLen before ≤ code.size ∧
        code.size <
          ip + w.operandsLen before + (w.widthOf kind).toNat ∧
        e =
          .truncated (ip + w.operandsLen before)
            (w.widthOf kind).toNat := by
  induction kinds generalizing ip with
  | nil => cases hRead
  | cons kind kinds ih =>
      rw [readOperands] at hRead
      rcases readOperand_cases hWidths kind ip with
        ⟨hFits, operand, hFirst⟩ | ⟨hPast, hFirst⟩
      · have hRest :
            (decoder.readOperands code kinds).run
                (ip + (w.widthOf kind).toNat) =
              (.error e, stop) := by
          rcases Effect.run_bind_eq_error.mp hRead with
            hHere | ⟨_, _, hThere, hOthers⟩
          · rw [hFirst] at hHere
            cases hHere
          · rw [hFirst] at hThere
            cases hThere
            rcases Effect.run_bind_eq_error.mp hOthers with
              hRest | ⟨_, _, _, hEnd⟩
            · exact hRest
            · cases hEnd
        rcases ih hFits hRest with
          ⟨before, last, after, hKinds, hBefore, hAfter, hFault⟩
        have hLength :
            ip + w.operandsLen (kind :: before) =
              ip + (w.widthOf kind).toNat + w.operandsLen before := by
          rw [Widths.operandsLen, List.map_cons, List.sum_cons,
            ← Nat.add_assoc]
          rfl
        refine ⟨kind :: before, last, after, ?_, ?_, ?_, ?_⟩
        · rw [hKinds, List.cons_append]
        · rwa [hLength]
        · rwa [hLength]
        · rwa [hLength]
      · rw [Effect.run_bind, hFirst] at hRead
        cases hRead
        exact ⟨[], kind, kinds, rfl, hInside, hPast, rfl⟩

/- Bytes that are not decoded have a fault, which is reported. -/
theorem faultAt_of_decode
    (hWidths : decoder.widths = w)
    {p : Nat}
    (hInside : p < code.size)
    {e : DecodeError}
    (hDecode : decoder.decode code p = .error e) :
    FaultAt w code p e := by
  have hByte := Array.getElem?_eq_getElem hInside
  generalize code[p] = byte at hByte
  rw [decode_eq, run_readOpcode, hByte] at hDecode
  dsimp only at hDecode
  cases hOpcode : Opcode.ofByte? byte with
  | none =>
      rw [hOpcode] at hDecode
      cases hDecode
      refine ⟨hInside, ?_, ?_⟩
      · intro byte' hByte'
        rw [hByte] at hByte'
        cases hByte'
        exact ⟨fun _ => hOpcode, fun _ => rfl⟩
      · intro byte' op hByte' hSome
        rw [hByte] at hByte'
        cases hByte'
        rw [hOpcode] at hSome
        cases hSome
  | some op =>
      rw [hOpcode] at hDecode
      dsimp only at hDecode
      rcases hRead :
          (decoder.readOperands code op.operands).run (p + 1) with
        ⟨e' | operands, stop⟩
      · rw [hRead] at hDecode
        cases hDecode
        rcases truncated_of_readOperands hWidths hInside hRead with
          ⟨before, kind, after, hKinds, hBefore, hAfter, hFault⟩
        refine ⟨hInside, ?_, ?_⟩
        · intro byte' hByte'
          rw [hByte] at hByte'
          cases hByte'
          rw [hFault, hOpcode]
          exact ⟨nofun, nofun⟩
        · intro byte' op' hByte' hSome
          rw [hByte] at hByte'
          cases hByte'
          rw [hOpcode] at hSome
          cases hSome
          refine ⟨?_, before, kind, after, _, _, hKinds, rfl, rfl,
            hFault, by omega, hBefore, hAfter⟩
          rw [Widths.instrLen_eq, hKinds, Widths.operandsLen,
            List.map_append, List.map_cons, List.sum_append,
            List.sum_cons]
          unfold Widths.operandsLen at hAfter
          omega
      · rw [hRead] at hDecode
        cases hDecode

------------------------------------------------------------
-- Instructions
------------------------------------------------------------

/- A decoded instruction lies in the code. -/
theorem next_le_size_of_decode
    (hWidths : decoder.widths = w)
    {offset : Nat}
    (hInside : offset < code.size)
    {instr : Instr}
    (hDecode : decoder.decode code offset = .ok instr) :
    instr.next ≤ code.size := by
  rcases drop_of_decode hWidths hDecode with ⟨hKinds, hBytes, _⟩
  have hNext := (next_of_decode hWidths hDecode).2
  have hLength := congrArg List.length hBytes
  have hSize := length_operandBytes w instr.operands
  rw [hKinds] at hSize
  rw [List.length_append, List.length_drop, List.length_drop,
    Array.length_toList, Assembler.instrBytes, List.length_cons,
    Nat.add_comm _ 1, hSize] at hLength
  unfold Widths.instrLen at hNext
  omega

end Decoder

/-
  Instructions that cover the bytes from one offset to another
  without a gap, each as many as its opcode says.
-/
inductive Covers
    (w : Widths) : Nat → List Instr → Nat → Prop where
  | nil (offset : Nat) : Covers w offset [] offset
  | cons {instr : Instr} {rest : List Instr} {stop : Nat}
      (hNext : instr.next = instr.offset + w.instrLen instr.opcode)
      (hRest : Covers w instr.next rest stop) :
    Covers w instr.offset (instr :: rest) stop

------------------------------------------------------------
-- Walks
------------------------------------------------------------

namespace Walker

variable {w : Widths} {decoder : Decoder} {code : Code}

/- The items that a walk yields, one after the other, to its end. -/
inductive Yields
    (decoder : Decoder)
    (code : Code) :
    Walker → List (Except DecodeError Instr) → Prop where
  | done {walker : Walker}
      (hEnd : walker.next? decoder code = none) :
    Yields decoder code walker []
  | item {walker next : Walker} {item : Except DecodeError Instr}
      {items : List (Except DecodeError Instr)}
      (hNext : walker.next? decoder code = some (item, next))
      (hRest : Yields decoder code next items) :
    Yields decoder code walker (item :: items)

/- If there is no more after some items, then they were all. -/
theorem yields_items
    (fuel : Nat)
    (walker : Walker)
    (hEnd :
      (items decoder code fuel walker).2.next? decoder code = none) :
    Yields decoder code walker
      (items decoder code fuel walker).1 := by
  induction fuel generalizing walker with
  | zero => exact .done hEnd
  | succ fuel ih =>
      rw [items] at hEnd ⊢
      cases hNext : walker.next? decoder code with
      | none => exact .done hNext
      | some result =>
          rw [hNext] at hEnd
          exact .item hNext (ih result.2 hEnd)

/-
  The items of a walk from an offset on: instructions that cover
  the code to its end, or to a fault, which is then the last item.
-/
theorem items_cover
    (hWidths : decoder.widths = w)
    {fuel ip : Nat}
    (hInside : ip ≤ code.size)
    (hFuel : code.size - ip ≤ fuel) :
    ∃ instrs p,
      Covers w ip instrs p ∧ p ≤ code.size ∧
        code.toList.drop ip =
          encoded w instrs ++ code.toList.drop p ∧
        ((p = code.size ∧
            items decoder code fuel { ip } =
              (instrs.map .ok, { ip := p })) ∨
          ∃ e, FaultAt w code p e ∧
            items decoder code fuel { ip } =
              (instrs.map .ok ++ [.error e],
                { ip := p, failed := true })) := by
  -- The fuel lasts: every instruction takes at least one byte.
  induction fuel generalizing ip with
  | zero =>
      have hEnd : ip = code.size := by omega
      exact ⟨[], ip, .nil ip, hInside, rfl, Or.inl ⟨hEnd, rfl⟩⟩
  | succ fuel ih =>
      by_cases hPast : code.size ≤ ip
      · have hNext : next? { ip } decoder code = none :=
          if_pos (Or.inr hPast)
        refine ⟨[], ip, .nil ip, hInside, rfl, Or.inl ⟨?_, ?_⟩⟩
        · exact Nat.le_antisymm hInside hPast
        · rw [items, hNext]
          rfl
      · have hBefore : ip < code.size := Nat.not_le.mp hPast
        cases hDecode : decoder.decode code ip with
        | error e =>
            have hNext :
                next? { ip } decoder code =
                  some (.error e, { ip, failed := true }) := by
              unfold next?
              rw [if_neg (by simp [hPast]), hDecode]
            have hStop :
                items decoder code fuel { ip, failed := true } =
                  ([], { ip, failed := true }) := by
              cases fuel <;> rfl
            have hFault :=
              Decoder.faultAt_of_decode hWidths hBefore hDecode
            refine ⟨[], ip, .nil ip, hInside, rfl,
              Or.inr ⟨e, hFault, ?_⟩⟩
            rw [items, hNext]
            simp only [hStop]
            rfl
        | ok instr =>
            have hNext :
                next? { ip } decoder code =
                  some (.ok instr, { ip := instr.next }) := by
              unfold next?
              rw [if_neg (by simp [hPast]), hDecode]
            have hBytes :=
              (Decoder.drop_of_decode hWidths hDecode).2.1
            rcases Decoder.next_of_decode hWidths hDecode with
              ⟨hOffset, hAfter⟩
            have hPositive : 0 < w.instrLen instr.opcode := by
              rw [Widths.instrLen_eq]
              exact Nat.succ_pos _
            have hFits :=
              Decoder.next_le_size_of_decode hWidths hBefore hDecode
            rcases ih hFits (by omega) with
              ⟨instrs, p, hCovers, hEnd, hRest, hItems⟩
            refine ⟨instr :: instrs, p, ?_, hEnd, ?_, ?_⟩
            · rw [← hOffset] at hAfter ⊢
              exact .cons hAfter hCovers
            · rw [hBytes, hRest, ← List.append_assoc]
              rfl
            · rw [items, hNext]
              rcases hItems with
                ⟨hAll, hItems⟩ | ⟨e, hFault, hItems⟩
              · refine Or.inl ⟨hAll, ?_⟩
                simp only [hItems, List.map_cons]
              · refine Or.inr ⟨e, hFault, ?_⟩
                simp only [hItems, List.map_cons, List.cons_append]

end Walker

/-
  The walk over any code ends. The instructions that it yields
  cover the code from its beginning on without a gap, each of the
  size of its opcode, and are encoded by the bytes that they cover.
  Either they cover all of the code and there is no fault, or one
  more item follows, the fault of the bytes where they end.
-/
theorem Decoder.instrs_cover_code
    {w : Widths}
    (hValid : w.Valid)
    (code : Code) :
    ∃ decoder, ofWidths w = .ok decoder ∧
      Walker.Yields decoder code {} (decoder.instrs code) ∧
      ∃ instrs p,
        Covers w 0 instrs p ∧ p ≤ code.size ∧
          encoded w instrs = code.toList.take p ∧
          ((p = code.size ∧
              decoder.instrs code = instrs.map .ok) ∨
            ∃ e, FaultAt w code p e ∧
              decoder.instrs code =
                instrs.map .ok ++ [.error e]) := by
  rcases ofWidths_of_valid hValid with ⟨decoder, hDecoder, hWidths⟩
  rcases Walker.items_cover hWidths (Nat.zero_le code.size)
      (Nat.sub_le _ _) with
    ⟨instrs, p, hCovers, hInside, hBytes, hItems⟩
  have hEncoded : encoded w instrs = code.toList.take p := by
    have hSame :
        encoded w instrs ++ code.toList.drop p =
          code.toList.take p ++ code.toList.drop p := by
      rw [← hBytes, List.drop_zero, List.take_append_drop]
    exact List.append_cancel_right hSame
  refine ⟨decoder, hDecoder, ?_, instrs, p, hCovers, hInside,
    hEncoded, ?_⟩
  · apply Walker.yields_items
    rcases hItems with ⟨hAll, hItems⟩ | ⟨e, hFault, hItems⟩
    · rw [hItems]
      exact if_pos (Or.inr (Nat.le_of_eq hAll.symm))
    · rw [hItems]
      exact if_pos (Or.inl rfl)
  · rcases hItems with ⟨hAll, hItems⟩ | ⟨e, hFault, hItems⟩
    · exact Or.inl ⟨hAll, congrArg Prod.fst hItems⟩
    · exact Or.inr ⟨e, hFault, congrArg Prod.fst hItems⟩

/-
  A return, and a virtual call that ends within its second operand:
  the name id would take two bytes at offset four, and there is one.
-/
theorem Decoder.instrs_cover_code_of_cut :
    let code : Code :=
      #[Opcode.ret.byte, 0, Opcode.callVirtual.byte, 1, 2]
    Widths.compact.Valid ∧
      ∃ decoder instrs p,
        ofWidths .compact = .ok decoder ∧
          Covers .compact 0 instrs p ∧
          FaultAt .compact code p (.truncated 4 2) ∧
          decoder.instrs code =
            instrs.map .ok ++ [.error (.truncated 4 2)] := by
  intro code
  have hValid : Widths.compact.Valid := by decide
  have hItems :
      (Decoder.slot8 2 2).instrs code =
        [.ok ⟨0, .ret, [⟨.slot, 0⟩], 2⟩,
          .error (.truncated 4 2)] := by
    decide +kernel
  rcases instrs_cover_code hValid code with
    ⟨decoder, hDecoder, _, instrs, p, hCovers, _, _, hEnd⟩
  have hSlots : decoder = .slot8 2 2 := by
    cases hDecoder
    rfl
  subst hSlots
  refine ⟨hValid, _, instrs, p, hDecoder, hCovers, ?_⟩
  rcases hEnd with ⟨_, hAll⟩ | ⟨e, hFault, hLast⟩
  · have hTail := congrArg List.getLast? (hAll.symm.trans hItems)
    simp at hTail
  · have hSame : e = .truncated 4 2 := by
      have hTail := congrArg List.getLast? (hLast.symm.trans hItems)
      simpa using hTail
    subst hSame
    exact ⟨hFault, hLast⟩

end RegisterVM
