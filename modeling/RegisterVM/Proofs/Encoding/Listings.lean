import RegisterVM.Listing
import RegisterVM.Proofs.Encoding.Image

/-
  Listings lose nothing. A walk without a fault finds instructions
  whose bytes make up the code, each where those before it end. A
  listing has one line for each of them, and a line can be taken
  apart again: the number before the colon, the mnemonic, and the
  operands between the commas. So the text of a listing gives the
  instructions back, and these the code.

  Key definitions include:
    * `Decoder.Reads`
    * `Line`
    * `Line.read`
    * `Listing.read`

  Key theorems include:
    * `Decoder.reads_of_walk`
    * `Line.read_text`
    * `Listing.read_text`
    * `Listing.encoded_of_lines`
    * `Listing.text_determines_code`
-/

namespace RegisterVM

------------------------------------------------------------
-- Walks Without A Fault
------------------------------------------------------------

namespace Decoder

variable {w : Widths} {decoder : Decoder} {code : Code}

/- Reading an operand steps past its bytes. -/
theorem next_of_readOperand
    (hWidths : decoder.widths = w)
    {kind : OperandKind}
    {operand : Operand}
    {ip next : Nat}
    (hRead :
      (decoder.readOperand kind code).run ip =
        (.ok operand, next)) :
    next = ip + (Assembler.operandBytes w operand).length := by
  have hKind := (drop_of_readOperand hWidths hRead).1
  rw [run_readOperand, hWidths] at hRead
  rw [Assembler.operandBytes, length_bytesLE, hKind]
  split at hRead
  next =>
    cases hRead
    rfl
  next => cases hRead

theorem next_of_readOperands
    (hWidths : decoder.widths = w)
    {kinds : List OperandKind}
    {operands : List Operand}
    {ip next : Nat}
    (hRead :
      (decoder.readOperands code kinds).run ip =
        (.ok operands, next)) :
    next =
      ip + (operands.flatMap (Assembler.operandBytes w)).length := by
  induction kinds generalizing operands ip with
  | nil =>
      cases hRead
      rfl
  | cons kind kinds ih =>
      rcases readOperands_cons_eq_ok hRead with
        ⟨operand, middle, rest, hFirst, hOthers, rfl⟩
      rw [ih hOthers, next_of_readOperand hWidths hFirst,
        List.flatMap_cons, List.length_append, Nat.add_assoc]

/- A decoded instruction covers as many bytes as its opcode says. -/
theorem next_of_decode
    (hWidths : decoder.widths = w)
    {offset : Nat}
    {instr : Instr}
    (hDecode : decoder.decode code offset = .ok instr) :
    instr.offset = offset ∧
      instr.next = offset + w.instrLen instr.opcode := by
  have hKinds := (drop_of_decode hWidths hDecode).1
  rcases decode_eq_ok hDecode with ⟨hOffset, _, hRead⟩
  have hLength := length_operandBytes w instr.operands
  rw [hKinds] at hLength
  refine ⟨hOffset, ?_⟩
  rw [next_of_readOperands hWidths hRead, Nat.add_assoc, hLength]
  rfl

/-
  Instructions that are the reading of some bytes, the first at an
  offset: they have the kinds of operands of their opcodes, their
  bytes are these, and each stands where those before it end.
-/
structure Reads
    (w : Widths)
    (start : Nat)
    (bytes : List UInt8)
    (instrs : List Instr) : Prop where
  bytes : bytes = encoded w instrs
  kinds :
    ∀ instr ∈ instrs,
      instr.operands.map Operand.kind = instr.opcode.operands
  offsets :
    ∀ n instr, instrs[n]? = some instr →
      instr.offset =
        start +
          ((instrs.take n).map fun i => w.instrLen i.opcode).sum

theorem Reads.nil
    (w : Widths)
    (start : Nat) :
    Reads w start [] [] where
  bytes := rfl
  kinds := nofun
  offsets n instr hInstr := by simp at hInstr

theorem Reads.cons
    {start : Nat}
    {bytes : List UInt8}
    {instr : Instr}
    {instrs : List Instr}
    (hKinds :
      instr.operands.map Operand.kind = instr.opcode.operands)
    (hOffset : instr.offset = start)
    (hRest :
      Reads w (start + w.instrLen instr.opcode) bytes instrs) :
    Reads w start
      (Assembler.instrBytes w instr.opcode instr.operands ++ bytes)
      (instr :: instrs) where
  bytes := by
    rw [hRest.bytes]
    rfl
  kinds := List.forall_mem_cons.mpr ⟨hKinds, hRest.kinds⟩
  offsets n other hOther := by
    cases n with
    | zero =>
        cases hOther
        exact hOffset
    | succ n =>
        rw [hRest.offsets n other hOther, List.take_succ_cons,
          List.map_cons, List.sum_cons, Nat.add_assoc]

/- A walk without a fault reads the rest of the code. -/
theorem reads_of_walk
    (hWidths : decoder.widths = w)
    {fuel ip : Nat}
    (hFuel : code.size - ip ≤ fuel)
    {instrs : List Instr}
    (hWalk :
      (Walker.items decoder code fuel { ip }).1 = instrs.map .ok) :
    Reads w ip (code.toList.drop ip) instrs := by
  have hEnd : code.size ≤ ip → code.toList.drop ip = [] := by
    intro hPast
    apply List.drop_of_length_le
    simpa using hPast
  induction fuel generalizing ip instrs with
  | zero =>
      rw [hEnd (by omega)]
      cases List.map_eq_nil_iff.mp hWalk.symm
      exact .nil w ip
  | succ fuel ih =>
      rw [Walker.items] at hWalk
      by_cases hPast : code.size ≤ ip
      · have hNext : Walker.next? { ip } decoder code = none :=
          if_pos (Or.inr hPast)
        rw [hNext] at hWalk
        rw [hEnd hPast]
        cases List.map_eq_nil_iff.mp hWalk.symm
        exact .nil w ip
      · cases hDecode : decoder.decode code ip with
        | error e =>
            have hNext :
                Walker.next? { ip } decoder code =
                  some (.error e, { ip, failed := true }) := by
              unfold Walker.next?
              rw [if_neg (by simp [hPast]), hDecode]
            rw [hNext] at hWalk
            cases instrs <;> cases hWalk
        | ok instr =>
            have hNext :
                Walker.next? { ip } decoder code =
                  some (.ok instr, { ip := instr.next }) := by
              unfold Walker.next?
              rw [if_neg (by simp [hPast]), hDecode]
            rw [hNext] at hWalk
            cases instrs with
            | nil => cases hWalk
            | cons first rest =>
                rw [List.map_cons, List.cons.injEq] at hWalk
                rcases hWalk with ⟨hFirst, hRest⟩
                cases hFirst
                rcases drop_of_decode hWidths hDecode with
                  ⟨hKinds, hBytes, _⟩
                rcases next_of_decode hWidths hDecode with
                  ⟨hOffset, hAfter⟩
                have hPositive : 0 < w.instrLen instr.opcode := by
                  rw [Widths.instrLen, ← hKinds,
                    ← length_operandBytes]
                  omega
                have hReads :=
                  ih (by omega) hRest fun hPast => by
                    apply List.drop_of_length_le
                    simpa using hPast
                rw [hAfter] at hReads
                rw [hBytes, hAfter]
                exact .cons hKinds hOffset hReads

/- Code whose walk has no fault is the code of what is decoded. -/
theorem reads_of_faultless
    (hWidths : decoder.widths = w)
    (hFaultless : ∀ e, .error e ∉ decoder.instrs code) :
    Reads w 0 code.toList (decoder.decoded code) := by
  have hWalk :
      (Walker.items decoder code code.size { ip := 0 }).1 =
        (decoder.decoded code).map .ok :=
    instrs_of_faultless hFaultless
  exact reads_of_walk hWidths (Nat.sub_le _ _) hWalk

end Decoder

------------------------------------------------------------
-- Words
------------------------------------------------------------

/- The characters of numbers, mnemonics and operands. -/
def isWordChar
    (c : Char) : Bool :=
  c.isAlphanum || c == '_' || c == '#'

/- Text of word characters only. -/
def IsWord
    (chars : List Char) : Prop :=
  ∀ c ∈ chars, isWordChar c = true

/- A word has no separator in it. -/
theorem IsWord.notMem
    {chars : List Char}
    (hWord : IsWord chars)
    {sep : Char}
    (hSep : isWordChar sep = false) :
    sep ∉ chars := by
  intro hMem
  rw [hWord sep hMem] at hSep
  cases hSep

theorem IsWord.append
    {chars chars' : List Char}
    (hFirst : IsWord chars)
    (hSecond : IsWord chars') :
    IsWord (chars ++ chars') := by
  intro c hMem
  rcases List.mem_append.mp hMem with hMem | hMem
  · exact hFirst c hMem
  · exact hSecond c hMem

theorem isWord_repr
    (n : Nat) :
    IsWord n.repr.toList := by
  intro c hMem
  rw [Nat.toList_repr] at hMem
  have hDigit : c.isDigit = true :=
    Nat.isDigit_of_mem_toDigits (by decide) (by decide) hMem
  simp [isWordChar, Char.isAlphanum, hDigit]

theorem Opcode.mem_all
    (op : Opcode) :
    op ∈ all := by
  have hTable := ofByte?_byte op
  rw [ofByte?, table, List.getElem?_toArray] at hTable
  exact List.mem_of_getElem? hTable

theorem Opcode.isWord_mnemonic
    (op : Opcode) :
    IsWord op.mnemonic.toList := by
  have hAll :
      all.all (fun op => op.mnemonic.toList.all isWordChar) =
        true := by
    decide +kernel
  exact List.all_eq_true.mp
    (List.all_eq_true.mp hAll op op.mem_all)

/- Different opcodes have different mnemonics. -/
theorem Opcode.mnemonic_inj
    {op op' : Opcode}
    (hSame : op.mnemonic = op'.mnemonic) :
    op = op' := by
  have hAll :
      ∀ op ∈ all, ofMnemonic? op.mnemonic = some op := by
    decide +kernel
  have hFirst := hAll op op.mem_all
  rw [hSame, hAll op' op'.mem_all] at hFirst
  exact (Option.some.inj hFirst).symm

theorem Operand.toList_text
    (operand : Operand) :
    operand.text.toList =
      operand.kind.mark.toList ++ operand.value.repr.toList := by
  simp [Operand.text, toString]

theorem Operand.isWord_text
    (operand : Operand) :
    IsWord operand.text.toList := by
  have hMark : IsWord operand.kind.mark.toList := by
    apply List.all_eq_true.mp
    cases operand.kind <;> rfl
  rw [toList_text]
  exact hMark.append (isWord_repr operand.value)

/- The text of an operand of a known kind gives its value. -/
theorem Operand.text_inj
    {operand operand' : Operand}
    (hKind : operand.kind = operand'.kind)
    (hSame : operand.text = operand'.text) :
    operand = operand' := by
  have hChars := congrArg String.toList hSame
  rw [toList_text, toList_text, hKind,
    List.append_cancel_left_eq] at hChars
  have hValue : operand.value = operand'.value :=
    Nat.repr_injective (String.toList_injective hChars)
  rcases operand with ⟨kind, value⟩
  rcases operand' with ⟨kind', value'⟩
  cases hKind
  cases hValue
  rfl

------------------------------------------------------------
-- Lines
------------------------------------------------------------

/- A line of a listing, taken apart. -/
structure Line where
  number : Option Nat
  mnemonic : String
  operands : List String
  deriving DecidableEq, Repr

namespace Line

/-
  Take a line apart: a number up to the first colon, a word after
  the blank up to the next one, and the rest at its commas, with
  the blanks left out.
-/
def read
    (chars : List Char) : Line :=
  let body := (chars.dropWhile (· != ':')).drop 2
  let rest := body.dropWhile (· != ' ')
  { number := (String.ofList (chars.takeWhile (· != ':'))).toNat?
    mnemonic := String.ofList (body.takeWhile (· != ' '))
    operands :=
      if rest.isEmpty then []
      else
        ((rest.filter (· != ' ')).splitOn ',').map String.ofList }

/- What the line of an instruction says. -/
def ofInstr
    (instr : Instr) : Line where
  number := some instr.offset
  mnemonic := instr.opcode.mnemonic
  operands := instr.operands.map Operand.text

/- Going on to a separator, over text without it. -/
theorem span_separator
    {sep : Char}
    {word rest : List Char}
    (hWord : sep ∉ word)
    (hRest : rest = [] ∨ ∃ more, rest = sep :: more) :
    (word ++ rest).takeWhile (· != sep) = word ∧
      (word ++ rest).dropWhile (· != sep) = rest := by
  have hPass : ∀ c ∈ word, (c != sep) = true := by
    intro c hMem
    have hOther : c ≠ sep := fun hSame => hWord (hSame ▸ hMem)
    simpa using hOther
  rw [List.takeWhile_append_of_pos hPass,
    List.dropWhile_append_of_pos hPass]
  rcases hRest with rfl | ⟨more, rfl⟩
  · simp
  · simp

/- Operands without the blanks between them. -/
theorem filter_intercalate
    (tokens : List (List Char))
    (hTokens : ∀ token ∈ tokens, ' ' ∉ token) :
    ([',', ' '].intercalate tokens).filter (· != ' ') =
      [','].intercalate tokens := by
  have hKept :
      ∀ token ∈ tokens, token.filter (· != ' ') = token := by
    intro token hMem
    rw [List.filter_eq_self]
    intro c hChar
    have hOther : c ≠ ' ' := fun hSame =>
      hTokens token hMem (hSame ▸ hChar)
    simpa using hOther
  induction tokens with
  | nil => rfl
  | cons first rest ih =>
      have hFirst := hKept first List.mem_cons_self
      cases rest with
      | nil =>
          rw [List.intercalate_singleton,
            List.intercalate_singleton, hFirst]
      | cons second rest =>
          have hRest :=
            ih
              (fun token hMem =>
                hTokens token (List.mem_cons_of_mem _ hMem))
              fun token hMem =>
                hKept token (List.mem_cons_of_mem _ hMem)
          rw [List.intercalate_cons_cons,
            List.intercalate_cons_cons, List.filter_append,
            List.filter_append, hFirst, hRest]
          rfl

/- The operands of an instruction in its line. -/
def operandChars
    (operands : List Operand) : List Char :=
  if operands.isEmpty then []
  else
    ' ' ::
      [',', ' '].intercalate
        (operands.map fun operand => operand.text.toList)

theorem toList_text
    (instr : Instr) :
    instr.text.toList =
      instr.offset.repr.toList ++
        ':' :: ' ' ::
          (instr.opcode.mnemonic.toList ++
            operandChars instr.operands) := by
  unfold Instr.text operandChars
  split
  next => simp [toString]
  next =>
    simp [toString, String.toList_intercalate]
    rfl

/- The line of an instruction says what the instruction is. -/
theorem read_text
    (instr : Instr) :
    read instr.text.toList = ofInstr instr := by
  have hNumber :=
    (isWord_repr instr.offset).notMem
      (show isWordChar ':' = false by decide)
  have hMnemonic :=
    instr.opcode.isWord_mnemonic.notMem
      (show isWordChar ' ' = false by decide)
  rw [toList_text]
  rcases span_separator hNumber (Or.inr ⟨_, rfl⟩) with
    ⟨hTake, hDrop⟩
  unfold read
  rw [hTake, hDrop]
  have hTail :
      operandChars instr.operands = [] ∨
        ∃ more, operandChars instr.operands = ' ' :: more := by
    unfold operandChars
    split
    · exact Or.inl rfl
    · exact Or.inr ⟨_, rfl⟩
  rcases span_separator hMnemonic hTail with ⟨hTake', hDrop'⟩
  simp only [List.drop_succ_cons, List.drop_zero, hTake', hDrop',
    String.ofList_toList, Nat.toNat?_repr, ofInstr]
  congr 1
  unfold operandChars
  cases hOperands : instr.operands with
  | nil => rfl
  | cons first rest =>
      generalize hTokens :
        (first :: rest).map (fun operand => operand.text.toList) =
          tokens
      have hWords :
          ∀ sep, isWordChar sep = false →
            ∀ token ∈ tokens, sep ∉ token := by
        intro sep hSep token hMem
        rw [← hTokens] at hMem
        rcases List.mem_map.mp hMem with ⟨operand, _, rfl⟩
        exact operand.isWord_text.notMem hSep
      have hSome : tokens ≠ [] := by
        rw [← hTokens]
        exact List.cons_ne_nil _ _
      have hTexts :
          tokens.map String.ofList =
            (first :: rest).map Operand.text := by
        rw [← hTokens, List.map_map]
        simp
      simp only [List.isEmpty_cons, Bool.false_eq_true, if_false]
      rw [List.filter_cons_of_neg (by decide),
        filter_intercalate tokens (hWords ' ' (by decide)),
        List.splitOn_intercalate ',' (hWords ',' (by decide)) hSome,
        hTexts]

end Line

------------------------------------------------------------
-- Listings
------------------------------------------------------------

theorem mapM_id_map_ok
    {ε α : Type}
    (values : List α) :
    (values.map Except.ok).mapM id = (.ok values : Except ε _) := by
  induction values with
  | nil => rfl
  | cons value values ih =>
      rw [List.map_cons, List.mapM_cons, ih]
      rfl

/- Collecting results stops at an error. -/
theorem mapM_id_of_error
    {ε α : Type}
    {items : List (Except ε α)}
    {e : ε}
    (hMem : .error e ∈ items) :
    ∃ first, items.mapM id = .error first := by
  induction items with
  | nil => cases hMem
  | cons item items ih =>
      rw [List.mapM_cons]
      cases item with
      | error first => exact ⟨first, rfl⟩
      | ok value =>
          rcases List.mem_cons.mp hMem with hHere | hLater
          · cases hHere
          · rcases ih hLater with ⟨first, hFirst⟩
            exact ⟨first, by rw [hFirst]; rfl⟩

theorem mem_of_mem_intercalate
    {c : Char}
    {sep : List Char}
    {words : List (List Char)}
    (hMem : c ∈ sep.intercalate words) :
    c ∈ sep ∨ ∃ word ∈ words, c ∈ word := by
  induction words with
  | nil => cases hMem
  | cons first rest ih =>
      cases rest with
      | nil =>
          rw [List.intercalate_singleton] at hMem
          exact Or.inr ⟨first, List.mem_cons_self, hMem⟩
      | cons second rest =>
          rw [List.intercalate_cons_cons, List.mem_append,
            List.mem_append] at hMem
          rcases hMem with (hFirst | hSep) | hRest
          · exact Or.inr ⟨first, List.mem_cons_self, hFirst⟩
          · exact Or.inl hSep
          · rcases ih hRest with hSep | ⟨word, hWord, hChar⟩
            · exact Or.inl hSep
            · exact Or.inr
                ⟨word, List.mem_cons_of_mem _ hWord, hChar⟩

namespace Listing

variable {w : Widths} {decoder : Decoder} {code : Code}

/-
  Code has a listing exactly if its walk has no fault, and then
  the lines are those of the decoded instructions.
-/
theorem ofWidths_eq_ok_iff
    (hDecoder : Decoder.ofWidths w = .ok decoder)
    (listing : Listing) :
    ofWidths code w = .ok listing ↔
      (∀ e, .error e ∉ decoder.instrs code) ∧
        listing = ⟨(decoder.decoded code).map Instr.text⟩ := by
  unfold ofWidths ofCode
  rw [hDecoder]
  dsimp only
  by_cases hFaultless : ∀ e, .error e ∉ decoder.instrs code
  · rw [Decoder.instrs_of_faultless hFaultless, mapM_id_map_ok]
    constructor
    · intro hListing
      cases hListing
      refine ⟨?_, rfl⟩
      rwa [← Decoder.instrs_of_faultless hFaultless]
    · rintro ⟨_, rfl⟩
      rfl
  · have hFault := hFaultless
    simp only [not_forall, not_not] at hFault
    rcases hFault with ⟨e, hMem⟩
    rcases mapM_id_of_error hMem with ⟨first, hFirst⟩
    rw [hFirst]
    constructor
    · exact nofun
    · exact fun hBoth => absurd hBoth.1 hFaultless

/- Take the text of a listing apart, line by line. -/
def read
    (text : String) : List Line :=
  let chars := text.toList
  if chars.isEmpty then [] else (chars.splitOn '\n').map Line.read

/- No line of a listing has a line end in it. -/
theorem lineEnd_notMem_text
    (instr : Instr) :
    '\n' ∉ instr.text.toList := by
  have hNo : isWordChar '\n' = false := by decide
  have hOperands : '\n' ∉ Line.operandChars instr.operands := by
    unfold Line.operandChars
    split
    · exact List.not_mem_nil
    · rw [List.mem_cons]
      rintro (hBlank | hMem)
      · exact absurd hBlank (by decide)
      · rcases mem_of_mem_intercalate hMem with
          hSep | ⟨word, hWord, hChar⟩
        · exact absurd hSep (by decide)
        · rcases List.mem_map.mp hWord with ⟨operand, _, rfl⟩
          exact operand.isWord_text.notMem hNo hChar
  rw [Line.toList_text]
  simp only [List.mem_append, List.mem_cons]
  rintro (hNumber | hColon | hBlank | hMnemonic | hRest)
  · exact (isWord_repr instr.offset).notMem hNo hNumber
  · exact absurd hColon (by decide)
  · exact absurd hBlank (by decide)
  · exact instr.opcode.isWord_mnemonic.notMem hNo hMnemonic
  · exact hOperands hRest

/- The text of a listing says what its instructions are. -/
theorem read_text
    (instrs : List Instr) :
    read (Listing.text ⟨instrs.map Instr.text⟩) =
      instrs.map Line.ofInstr := by
  have hChars :
      (Listing.text ⟨instrs.map Instr.text⟩).toList =
        ['\n'].intercalate
          (instrs.map fun instr => instr.text.toList) := by
    rw [Listing.text, String.toList_intercalate, List.map_map]
    rfl
  unfold read
  rw [hChars]
  cases instrs with
  | nil => rfl
  | cons first rest =>
      have hLines :
          ∀ line ∈ (first :: rest).map fun instr =>
              instr.text.toList,
            '\n' ∉ line := by
        intro line hMem
        rcases List.mem_map.mp hMem with ⟨instr, _, rfl⟩
        exact lineEnd_notMem_text instr
      have hSome :
          ['\n'].intercalate
              ((first :: rest).map fun instr =>
                instr.text.toList) ≠ [] := by
        intro hNone
        have hSplit :=
          List.splitOn_intercalate '\n' hLines (List.cons_ne_nil _ _)
        rw [hNone, List.splitOn_nil, List.map_cons,
          List.cons.injEq, Line.toList_text] at hSplit
        simp at hSplit
      have hSplit :=
        List.splitOn_intercalate '\n' hLines (List.cons_ne_nil _ _)
      dsimp only
      rw [if_neg (by simpa using hSome), hSplit, List.map_map]
      apply List.map_congr_left
      intro instr _
      exact Line.read_text instr

/- Operands of known kinds are given by their texts. -/
theorem operands_of_texts
    {operands operands' : List Operand}
    (hKinds :
      operands.map Operand.kind = operands'.map Operand.kind)
    (hTexts :
      operands.map Operand.text = operands'.map Operand.text) :
    operands = operands' := by
  induction operands generalizing operands' with
  | nil => exact (List.map_eq_nil_iff.mp hKinds.symm).symm
  | cons operand rest ih =>
      cases operands' with
      | nil => cases hKinds
      | cons operand' rest' =>
          rw [List.map_cons, List.map_cons, List.cons.injEq]
            at hKinds hTexts
          rw [Operand.text_inj hKinds.1 hTexts.1,
            ih hKinds.2 hTexts.2]

/- Instructions whose lines say the same have the same bytes. -/
theorem encoded_of_lines
    {instrs instrs' : List Instr}
    (hKinds :
      ∀ instr ∈ instrs,
        instr.operands.map Operand.kind = instr.opcode.operands)
    (hKinds' :
      ∀ instr ∈ instrs',
        instr.operands.map Operand.kind = instr.opcode.operands)
    (hLines : instrs.map Line.ofInstr = instrs'.map Line.ofInstr) :
    encoded w instrs = encoded w instrs' := by
  induction instrs generalizing instrs' with
  | nil => rw [List.map_eq_nil_iff.mp hLines.symm]
  | cons instr rest ih =>
      cases instrs' with
      | nil => cases hLines
      | cons instr' rest' =>
          rw [List.map_cons, List.map_cons, List.cons.injEq]
            at hLines
          rcases List.forall_mem_cons.mp hKinds with
            ⟨hFirst, hRest⟩
          rcases List.forall_mem_cons.mp hKinds' with
            ⟨hFirst', hRest'⟩
          have hOpcode :=
            Opcode.mnemonic_inj (congrArg Line.mnemonic hLines.1)
          rw [hOpcode, ← hFirst'] at hFirst
          have hOperands :=
            operands_of_texts hFirst
              (congrArg Line.operands hLines.1)
          have hBytes := ih hRest hRest' hLines.2
          rw [encoded, encoded, List.flatMap_cons,
            List.flatMap_cons, hOpcode, hOperands]
          exact congrArg _ hBytes

/-
  Listings lose nothing. Code has a listing exactly if its walk
  has no fault. Its text then has one line per instruction, with a
  leading number that is the size of all instructions before, the
  mnemonic, and one operand between commas for each kind of
  operand that the shape of the opcode has. And code with the same
  text is the same code.
-/
theorem text_determines_code
    {w : Widths}
    (hValid : w.Valid) :
    ∃ decoder,
      Decoder.ofWidths w = .ok decoder ∧
      (∀ code,
        (∃ listing, ofWidths code w = .ok listing) ↔
          ∀ e, .error e ∉ decoder.instrs code) ∧
      (∀ code listing, ofWidths code w = .ok listing →
        (read listing.text).length =
            (decoder.decoded code).length ∧
          ∀ n instr line,
            (decoder.decoded code)[n]? = some instr →
            (read listing.text)[n]? = some line →
              line.number =
                  some
                    (((decoder.decoded code).take n).map fun i =>
                      w.instrLen i.opcode).sum ∧
                line.mnemonic = instr.opcode.mnemonic ∧
                line.operands =
                  instr.operands.map Operand.text ∧
                line.operands.length = instr.opcode.shape.arity) ∧
      ∀ code code' listing listing',
        ofWidths code w = .ok listing →
        ofWidths code' w = .ok listing' →
        listing.text = listing'.text →
          code = code' := by
  rcases Decoder.ofWidths_of_valid hValid with
    ⟨decoder, hDecoder, hWidths⟩
  refine ⟨decoder, hDecoder, ?_, ?_, ?_⟩
  · intro code
    constructor
    · rintro ⟨listing, hListing⟩
      exact ((ofWidths_eq_ok_iff hDecoder listing).mp hListing).1
    · intro hFaultless
      exact ⟨_,
        (ofWidths_eq_ok_iff hDecoder _).mpr ⟨hFaultless, rfl⟩⟩
  · intro code listing hListing
    rcases (ofWidths_eq_ok_iff hDecoder listing).mp hListing with
      ⟨hFaultless, rfl⟩
    have hReads := Decoder.reads_of_faultless hWidths hFaultless
    rw [read_text]
    refine ⟨List.length_map _, ?_⟩
    intro n instr line hInstr hLine
    rw [List.getElem?_map, hInstr] at hLine
    cases hLine
    have hOffset := hReads.offsets n instr hInstr
    rw [Nat.zero_add] at hOffset
    have hKinds := hReads.kinds instr (List.mem_of_getElem? hInstr)
    refine ⟨congrArg some hOffset, rfl, rfl, ?_⟩
    rw [Line.ofInstr, List.length_map, ← List.length_map,
      hKinds]
    rfl
  · intro code code' listing listing' hListing hListing' hText
    rcases (ofWidths_eq_ok_iff hDecoder listing).mp hListing with
      ⟨hFaultless, rfl⟩
    rcases (ofWidths_eq_ok_iff hDecoder listing').mp hListing'
      with ⟨hFaultless', rfl⟩
    have hReads := Decoder.reads_of_faultless hWidths hFaultless
    have hReads' := Decoder.reads_of_faultless hWidths hFaultless'
    have hLines := congrArg read hText
    rw [read_text, read_text] at hLines
    apply Array.toList_inj.mp
    rw [hReads.bytes, hReads'.bytes]
    exact encoded_of_lines hReads.kinds hReads'.kinds hLines

/- A constant, a virtual call on it, and a return. -/
def callCode : Code :=
  #[Opcode.constInt.byte, 0, 0, 1,
    Opcode.callVirtual.byte, 1, 2, 0, 2, 1, 0,
    Opcode.ret.byte, 0]

theorem text_determines_code_of_callCode :
    Widths.compact.Valid ∧
      ∃ listing,
        ofWidths callCode .compact = .ok listing ∧
        read listing.text =
          [⟨some 0, "CONST_INT", ["k0", "s1"]⟩,
            ⟨some 4, "CALL_VIRTUAL", ["s1", "#2", "s2", "n1", "s0"]⟩,
            ⟨some 11, "RET", ["s0"]⟩] ∧
        ∀ code' listing',
          ofWidths code' .compact = .ok listing' →
          listing'.text = listing.text →
            code' = callCode := by
  have hValid : Widths.compact.Valid := by decide
  rcases text_determines_code hValid with
    ⟨decoder, hDecoder, hIff, _, hSame⟩
  have hSlots : decoder = .slot8 2 2 := by
    cases hDecoder
    rfl
  subst hSlots
  have hInstrs :
      (Decoder.slot8 2 2).instrs callCode =
        [.ok ⟨0, .constInt, [⟨.konst, 0⟩, ⟨.slot, 1⟩], 4⟩,
          .ok
            ⟨4, .callVirtual,
              [⟨.slot, 1⟩, ⟨.id, 2⟩, ⟨.slot, 2⟩, ⟨.count, 1⟩,
                ⟨.slot, 0⟩], 11⟩,
          .ok ⟨11, .ret, [⟨.slot, 0⟩], 13⟩] := by
    decide +kernel
  have hFaultless :
      ∀ e, .error e ∉ (Decoder.slot8 2 2).instrs callCode := by
    simp [hInstrs]
  rcases (hIff callCode).mpr hFaultless with ⟨listing, hListing⟩
  refine ⟨hValid, listing, hListing, ?_, ?_⟩
  · rw [((ofWidths_eq_ok_iff hDecoder listing).mp hListing).2,
      read_text, Decoder.decoded, hInstrs]
    decide +kernel
  · intro code' listing' hListing' hText
    exact hSame code' callCode listing' listing hListing' hListing
      hText

end Listing

end RegisterVM
