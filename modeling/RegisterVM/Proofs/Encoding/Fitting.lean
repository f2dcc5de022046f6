import RegisterVM.Function.Call
import RegisterVM.Proofs.Encoding.Image

/-
  Widths that fit. A function has so many slots, bytes of code and
  constants, and the widths chosen for them are the narrowest that
  address all of them: any valid widths do so exactly if none of
  them is narrower. What is addressed can also be encoded, with one
  exception. The arguments of a call are a window of the frame. In
  a frame that uses up its slot width, the window that takes the
  whole frame has a count beyond the width, and the empty window at
  the end of the frame a base beyond it.

  Key definitions include:
    * `Extent`
    * `Extent.largest`
    * `Extent.Allows`
    * `Extent.Spills`

  Key theorems include:
    * `Extent.largest_le_maxValue_iff`
    * `Extent.slots_le_maxValue_iff`
    * `Assembler.outOfRange?_window`
    * `Extent.accepted_unless_spilled`
-/

namespace RegisterVM

------------------------------------------------------------
-- Extents
------------------------------------------------------------

/- How much a function has to address. -/
structure Extent where
  slots : Nat
  codeLen : Nat
  consts : Nat
  deriving DecidableEq, Repr

namespace Extent

/- There is a slot, and all of it can be addressed at all. -/
structure Bounded
    (extent : Extent) : Prop where
  slots : 1 ≤ extent.slots ∧ extent.slots ≤ 2 ^ 31
  codeLen : extent.codeLen ≤ 2 ^ 32 - 1
  consts : extent.consts ≤ 2 ^ 32

/- The widths that are chosen for an extent. -/
def widths
    (extent : Extent) : Widths :=
  .fit extent.slots extent.codeLen extent.consts

/-
  The largest value that addresses something: the last slot, the
  last constant, or the end of the code.
-/
def largest
    (extent : Extent) : OperandKind → Nat
  | .slot | .count => extent.slots - 1
  | .ip => extent.codeLen
  | .konst | .id => extent.consts - 1

variable {extent : Extent}

/- The chosen widths are valid. -/
theorem valid_widths
    (extent : Extent) :
    extent.widths.Valid := by
  unfold widths Widths.fit
  refine ⟨?_, ?_, ?_⟩
  · dsimp only
    split
    next => exact Or.inl rfl
    next =>
      split
      next => exact Or.inr (Or.inl rfl)
      next => exact Or.inr (Or.inr rfl)
  · dsimp only
    split
    next => exact Or.inl rfl
    next => exact Or.inr rfl
  · dsimp only
    split
    next => exact Or.inl rfl
    next => exact Or.inr rfl

/- The slot width in terms of the number of slots. -/
theorem widths_slot_le_iff
    (extent : Extent) :
    (extent.widths.slot ≤ 1 ↔ extent.slots ≤ 0x100) ∧
      (extent.widths.slot ≤ 2 ↔ extent.slots ≤ 0x10000) ∧
      extent.widths.slot ≤ 4 := by
  unfold widths Widths.fit
  dsimp only
  split
  next hFew =>
    have hWider : extent.slots ≤ 0x10000 := by
      omega
    simp [hFew, hWider]
  next hMany =>
    split
    next hFew => simp [hMany, hFew]
    next hMost => simp [hMany, hMost]

/- The target width in terms of the length of the code. -/
theorem widths_ip_le_iff
    (extent : Extent) :
    (extent.widths.ip ≤ 2 ↔ extent.codeLen ≤ 0xFFFF) ∧
      extent.widths.ip ≤ 4 := by
  unfold widths Widths.fit
  dsimp only
  split
  next hShort => simp [hShort]
  next hLong => simp [hLong]

/- The constant width in terms of the number of constants. -/
theorem widths_konst_le_iff
    (extent : Extent) :
    (extent.widths.konst ≤ 2 ↔ extent.consts ≤ 0x10000) ∧
      extent.widths.konst ≤ 4 := by
  unfold widths Widths.fit
  dsimp only
  split
  next hFew => simp [hFew]
  next hMany => simp [hMany]

/-
  Valid widths hold all values of a kind exactly if they are not
  narrower there than the chosen ones.
-/
theorem largest_le_maxValue_iff
    (hBounds : extent.Bounded)
    {w : Widths}
    (hValid : w.Valid)
    (kind : OperandKind) :
    extent.largest kind ≤ w.maxValue kind ↔
      extent.widths.widthOf kind ≤ w.widthOf kind := by
  rcases hBounds with ⟨⟨_, hSlots⟩, hCode, hConsts⟩
  rcases w with ⟨slot, ip, konst⟩
  cases kind with
  | slot | count =>
      rcases extent.widths_slot_le_iff with ⟨hOne, hTwo, hFour⟩
      rcases hValid.slot with hWidth | hWidth | hWidth
      · cases hWidth
        show extent.slots - 1 ≤ 0xFF ↔ extent.widths.slot ≤ 1
        rw [hOne]
        omega
      · cases hWidth
        show extent.slots - 1 ≤ 0xFFFF ↔ extent.widths.slot ≤ 2
        rw [hTwo]
        omega
      · cases hWidth
        refine iff_of_true ?_ hFour
        show extent.slots - 1 ≤ 0x7FFFFFFF
        omega
  | ip =>
      rcases extent.widths_ip_le_iff with ⟨hTwo, hFour⟩
      rcases hValid.ip with hWidth | hWidth
      · cases hWidth
        exact hTwo.symm
      · cases hWidth
        exact iff_of_true hCode hFour
  | konst | id =>
      rcases extent.widths_konst_le_iff with ⟨hTwo, hFour⟩
      rcases hValid.konst with hWidth | hWidth
      · cases hWidth
        show extent.consts - 1 ≤ 0xFFFF ↔ extent.widths.konst ≤ 2
        rw [hTwo]
        omega
      · cases hWidth
        refine iff_of_true ?_ hFour
        show extent.consts - 1 ≤ 0xFFFFFFFF
        omega

/- Chosen widths hold what they were chosen for. -/
theorem largest_le_maxValue
    (hBounds : extent.Bounded)
    (kind : OperandKind) :
    extent.largest kind ≤ extent.widths.maxValue kind :=
  (largest_le_maxValue_iff hBounds extent.valid_widths kind).mpr
    (UInt8.le_refl _)

------------------------------------------------------------
-- Frames That Use Up Their Width
------------------------------------------------------------

/- The last slot of a frame has the largest index of its width. -/
def Full
    (extent : Extent) : Prop :=
  extent.slots = 2 ^ 8 ∨ extent.slots = 2 ^ 16 ∨
    extent.slots = 2 ^ 31

/- The number of slots is itself in range, unless the frame is full. -/
theorem slots_le_maxValue_iff
    (hBounds : extent.Bounded) :
    extent.slots ≤ extent.widths.maxValue .slot ↔
      ¬extent.Full := by
  rcases hBounds.slots with ⟨hSome, hMost⟩
  have hLargest :
      extent.widths.maxValue .slot =
        if extent.slots ≤ 0x100 then 0xFF
        else if extent.slots ≤ 0x10000 then 0xFFFF
        else 0x7FFFFFFF := by
    unfold Widths.maxValue Widths.widthOf widths Widths.fit
    dsimp only
    split
    next => rfl
    next =>
      split
      next => rfl
      next => rfl
  rw [hLargest, Full]
  split
  next => omega
  next =>
    split
    next => omega
    next => omega

/- A number up to that of the slots is in range but in one case. -/
theorem maxValue_lt_iff
    (hBounds : extent.Bounded)
    (value : Nat)
    (hValue : value ≤ extent.slots) :
    extent.widths.maxValue .slot < value ↔
      extent.Full ∧ value = extent.slots := by
  have hLast : extent.slots - 1 ≤ extent.widths.maxValue .slot :=
    largest_le_maxValue hBounds .slot
  have hFull := slots_le_maxValue_iff hBounds
  constructor
  · intro hBeyond
    have hSame : value = extent.slots := by
      omega
    refine ⟨?_, hSame⟩
    by_contra hRoom
    have hSlots := hFull.mpr hRoom
    omega
  · rintro ⟨hUsed, rfl⟩
    by_contra hInside
    exact hFull.mp (Nat.not_lt.mp hInside) hUsed

------------------------------------------------------------
-- Instructions Within An Extent
------------------------------------------------------------

/-
  An operand that addresses something. Counts stand in calls only,
  where they belong to a window.
-/
def Reaches
    (extent : Extent)
    (operand : Operand) : Prop :=
  match operand.kind with
  | .slot | .count => operand.value < extent.slots
  | .konst | .id => operand.value < extent.consts
  | .ip => operand.value ≤ extent.codeLen

/-
  The instructions that make sense in a function: slots are slots
  of the frame, ids are those of constants, and jumps go to the
  code or its end. The arguments of a call are any window of the
  frame, the whole frame and the empty window at its end included.
-/
inductive Allows
    (extent : Extent) : Opcode → List Nat → Prop where
  | plain {op : Opcode} {values : List Nat}
      (hDirect : op.shape ≠ .directCall)
      (hVirtual : op.shape ≠ .virtualCall)
      (hArity : values.length = op.operands.length)
      (hReaches :
        ∀ operand ∈ Assembler.tagged op values,
          extent.Reaches operand) :
    Allows extent op values
  | directCall {op : Opcode} {id base count result : Nat}
      (hShape : op.shape = .directCall)
      (hId : id < extent.consts)
      (hWindow : base + count ≤ extent.slots)
      (hResult : result < extent.slots) :
    Allows extent op [id, base, count, result]
  | virtualCall {op : Opcode} {receiver id base count result : Nat}
      (hShape : op.shape = .virtualCall)
      (hReceiver : receiver < extent.slots)
      (hId : id < extent.consts)
      (hWindow : base + count ≤ extent.slots)
      (hResult : result < extent.slots) :
    Allows extent op [receiver, id, base, count, result]

/- The base and the length of the arguments of a call. -/
def argWindow?
    (op : Opcode)
    (values : List Nat) : Option (Nat × Nat) :=
  match op.shape, values with
  | .directCall, [_, base, count, _]
  | .virtualCall, [_, _, base, count, _] => some (base, count)
  | _, _ => none

/-
  A call whose window cannot be written down: the frame is full,
  and the window is the whole frame or stands at its end.
-/
structure Spills
    (extent : Extent)
    (op : Opcode)
    (values : List Nat) : Prop where
  full : extent.Full
  window :
    ∃ base count, argWindow? op values = some (base, count) ∧
      (base = extent.slots ∨ count = extent.slots)

theorem Reaches.le_maxValue
    (hBounds : extent.Bounded)
    {operand : Operand}
    (hReaches : extent.Reaches operand) :
    operand.value ≤ extent.widths.maxValue operand.kind := by
  refine Nat.le_trans ?_ (largest_le_maxValue hBounds operand.kind)
  rcases operand with ⟨kind, value⟩
  cases kind with
  | slot | count | konst | id => exact Nat.le_sub_one_of_lt hReaches
  | ip => exact hReaches

end Extent

------------------------------------------------------------
-- Emitting What An Extent Allows
------------------------------------------------------------

namespace Assembler

variable {w : Widths} {asm : Assembler} {op : Opcode}
  {values : List Nat}

/- Values in range are accepted. -/
theorem emit_of_inRange
    (hWidths : asm.widths = w)
    (hArity : values.length = op.operands.length)
    (hRange : outOfRange? w (tagged op values) = none) :
    (emit op values).run asm =
      (.ok asm.here,
        { asm with
          code := asm.code ++ instrBytes w op (tagged op values) }) := by
  subst hWidths
  rw [run_emit, if_pos hArity, hRange]

/- The first value out of range is refused, and nothing emitted. -/
theorem emit_of_outOfRange
    (hWidths : asm.widths = w)
    (hArity : values.length = op.operands.length)
    {operand : Operand}
    (hRange : outOfRange? w (tagged op values) = some operand) :
    (emit op values).run asm =
      (.error (.range op operand (w.widthOf operand.kind)),
        asm) := by
  subst hWidths
  rw [run_emit, if_pos hArity, hRange]

/- Of a call, only its window can be out of range. -/
theorem outOfRange?_window
    {lead : List Operand}
    (hLead :
      ∀ operand ∈ lead, operand.value ≤ w.maxValue operand.kind)
    (base count : Nat)
    {result : Nat}
    (hResult : result ≤ w.maxValue .slot) :
    outOfRange? w
        (lead ++ [⟨.slot, base⟩, ⟨.count, count⟩, ⟨.slot, result⟩]) =
      if w.maxValue .slot < base then some ⟨.slot, base⟩
      else if w.maxValue .slot < count then some ⟨.count, count⟩
      else none := by
  have hNone : outOfRange? w lead = none := by
    apply List.find?_eq_none.mpr
    intro operand hMem
    simpa using hLead operand hMem
  have hCount : w.maxValue .count = w.maxValue .slot := rfl
  unfold outOfRange? at hNone ⊢
  rw [List.find?_append, hNone, Option.none_or]
  simp only [List.find?_cons, List.find?_nil, hCount]
  by_cases hBase : w.maxValue .slot < base
  · simp [hBase]
  · by_cases hMany : w.maxValue .slot < count
    · simp [hBase, hMany]
    · have hLast : ¬w.maxValue .slot < result :=
        Nat.not_lt.mpr hResult
      simp [hBase, hMany, hLast]

end Assembler

namespace Extent

variable {extent : Extent} {asm : Assembler} {op : Opcode}
  {values : List Nat}

/-
  What an assembler makes of an instruction: it appends it, unless
  it is a call that spills, of which it refuses the base or the
  count.
-/
structure Settles
    (extent : Extent)
    (asm : Assembler)
    (op : Opcode)
    (values : List Nat) : Prop where
  accepted :
    ¬extent.Spills op values →
      (Assembler.emit op values).run asm =
        (.ok asm.here,
          { asm with
            code :=
              asm.code ++
                Assembler.instrBytes extent.widths op
                  (Assembler.tagged op values) })
  refused :
    extent.Spills op values →
      ∃ kind, (kind = .slot ∨ kind = .count) ∧
        (Assembler.emit op values).run asm =
          (.error
            (.range op ⟨kind, extent.slots⟩ extent.widths.slot),
            asm)

/- An instruction without a window is accepted. -/
theorem settles_plain
    (hBounds : extent.Bounded)
    (hWidths : asm.widths = extent.widths)
    (hWindow : argWindow? op values = none)
    (hArity : values.length = op.operands.length)
    (hReaches :
      ∀ operand ∈ Assembler.tagged op values,
        extent.Reaches operand) :
    extent.Settles asm op values := by
  have hRange :
      Assembler.outOfRange? extent.widths
          (Assembler.tagged op values) = none := by
    apply List.find?_eq_none.mpr
    intro operand hMem
    simpa using (hReaches operand hMem).le_maxValue hBounds
  constructor
  · intro _
    exact Assembler.emit_of_inRange hWidths hArity hRange
  · rintro ⟨_, base, count, hSome, _⟩
    rw [hWindow] at hSome
    cases hSome

/- A call is accepted unless its window spills. -/
theorem settles_call
    (hBounds : extent.Bounded)
    (hWidths : asm.widths = extent.widths)
    (lead : List Operand)
    {base count result : Nat}
    (hWindow : argWindow? op values = some (base, count))
    (hArity : values.length = op.operands.length)
    (hTagged :
      Assembler.tagged op values =
        lead ++ [⟨.slot, base⟩, ⟨.count, count⟩, ⟨.slot, result⟩])
    (hLead : ∀ operand ∈ lead, extent.Reaches operand)
    (hInside : base + count ≤ extent.slots)
    (hResult : result < extent.slots) :
    extent.Settles asm op values := by
  have hBase := maxValue_lt_iff hBounds base (by omega)
  have hCount := maxValue_lt_iff hBounds count (by omega)
  have hLast : extent.Reaches ⟨.slot, result⟩ := hResult
  have hRange :=
    Assembler.outOfRange?_window
      (fun operand hMem => (hLead operand hMem).le_maxValue hBounds)
      base count (hLast.le_maxValue hBounds)
  rw [← hTagged] at hRange
  constructor
  · intro hFits
    have hBaseFits : ¬extent.widths.maxValue .slot < base := by
      rw [hBase]
      rintro ⟨hFull, hSame⟩
      exact hFits ⟨hFull, base, count, hWindow, Or.inl hSame⟩
    have hCountFits : ¬extent.widths.maxValue .slot < count := by
      rw [hCount]
      rintro ⟨hFull, hSame⟩
      exact hFits ⟨hFull, base, count, hWindow, Or.inr hSame⟩
    rw [if_neg hBaseFits, if_neg hCountFits] at hRange
    exact Assembler.emit_of_inRange hWidths hArity hRange
  · rintro ⟨hFull, base', count', hSame, hEdge⟩
    rw [hWindow] at hSame
    cases hSame
    rcases hEdge with hEnd | hWhole
    · rw [if_pos (hBase.mpr ⟨hFull, hEnd⟩), hEnd] at hRange
      exact ⟨.slot, Or.inl rfl,
        Assembler.emit_of_outOfRange hWidths hArity hRange⟩
    · -- A window that takes the whole frame starts at its start.
      have hSome := hBounds.slots.1
      have hBaseFits : ¬extent.widths.maxValue .slot < base := by
        rw [hBase]
        omega
      rw [if_neg hBaseFits, if_pos (hCount.mpr ⟨hFull, hWhole⟩),
        hWhole] at hRange
      exact ⟨.count, Or.inr rfl,
        Assembler.emit_of_outOfRange hWidths hArity hRange⟩

/- Every instruction that an extent allows is settled so. -/
theorem Allows.settles
    (hBounds : extent.Bounded)
    (hWidths : asm.widths = extent.widths)
    (hAllowed : extent.Allows op values) :
    extent.Settles asm op values := by
  cases hAllowed with
  | plain hDirect hVirtual hArity hReaches =>
      have hWindow : argWindow? op values = none := by
        unfold argWindow?
        split
        next hShape => exact absurd hShape hDirect
        next hShape => exact absurd hShape hVirtual
        next => rfl
      exact settles_plain hBounds hWidths hWindow hArity hReaches
  | @directCall id base count result hShape hId hInside hResult =>
      have hKinds : op.operands = [.id, .slot, .count, .slot] := by
        rw [Opcode.operands, hShape]
        rfl
      refine settles_call hBounds hWidths [⟨.id, id⟩] ?_ ?_ ?_ ?_
        hInside hResult
      · simp only [argWindow?, hShape]
      · rw [hKinds]
        rfl
      · rw [Assembler.tagged, hKinds]
        rfl
      · intro operand hMem
        rw [List.mem_singleton.mp hMem]
        exact hId
  | @virtualCall receiver id base count result hShape hReceiver hId
      hInside hResult =>
      have hKinds :
          op.operands = [.slot, .id, .slot, .count, .slot] := by
        rw [Opcode.operands, hShape]
        rfl
      refine settles_call hBounds hWidths
        [⟨.slot, receiver⟩, ⟨.id, id⟩] ?_ ?_ ?_ ?_ hInside hResult
      · simp only [argWindow?, hShape]
      · rw [hKinds]
        rfl
      · rw [Assembler.tagged, hKinds]
        rfl
      · intro operand hMem
        rcases List.mem_pair.mp hMem with rfl | rfl
        · exact hReceiver
        · exact hId

/-
  The widths that are chosen for a function encode what makes sense
  in it. They make an assembler, and whatever that assembler has
  emitted, it accepts every instruction that is allowed, except for
  calls whose window spills. Of these it refuses the base or the
  count, since the number of slots is one more than the largest
  index.
-/
theorem accepted_unless_spilled
    (extent : Extent)
    (hBounds : extent.Bounded) :
    Assembler.new extent.widths = .ok { widths := extent.widths } ∧
      ∀ (asm : Assembler), asm.widths = extent.widths →
        ∀ op values, extent.Allows op values →
          (¬extent.Spills op values →
            (Assembler.emit op values).run asm =
              (.ok asm.here,
                { asm with
                  code :=
                    asm.code ++
                      Assembler.instrBytes extent.widths op
                        (Assembler.tagged op values) })) ∧
            (extent.Spills op values →
              ∃ kind, (kind = .slot ∨ kind = .count) ∧
                (Assembler.emit op values).run asm =
                  (.error
                    (.range op ⟨kind, extent.slots⟩
                      extent.widths.slot),
                    asm)) := by
  constructor
  · rw [Assembler.new,
      (Widths.check_eq_ok_iff _).mpr extent.valid_widths]
    rfl
  · intro asm hWidths op values hAllowed
    have hSettles := hAllowed.settles hBounds hWidths
    exact ⟨hSettles.accepted, hSettles.refused⟩

/-
  A full frame of 256 slots and a full pool. The longest call that
  leaves out the first slot is accepted; a call on the whole frame
  is not.
-/
theorem accepted_unless_spilled_of_full :
    let extent : Extent := ⟨256, 65535, 65536⟩
    let asm : Assembler := { widths := ⟨1, 2, 2⟩ }
    extent.Bounded ∧ extent.widths = asm.widths ∧
      extent.Allows .callVirtual [255, 65535, 1, 255, 255] ∧
      (Assembler.emit .callVirtual [255, 65535, 1, 255, 255]).run
          asm =
        (.ok 0,
          { asm with
            code :=
              #[Opcode.callVirtual.byte, 255, 255, 255, 1, 255, 255] }) ∧
      extent.Allows .callDirect [0, 0, 256, 0] ∧
      ∃ kind, (kind = .slot ∨ kind = .count) ∧
        (Assembler.emit .callDirect [0, 0, 256, 0]).run asm =
          (.error (.range .callDirect ⟨kind, 256⟩ 1), asm) := by
  intro extent asm
  have hBounds : extent.Bounded :=
    ⟨by decide, by decide, by decide⟩
  have hLong :
      extent.Allows .callVirtual [255, 65535, 1, 255, 255] :=
    .virtualCall rfl (by decide) (by decide) (by decide) (by decide)
  have hWhole : extent.Allows .callDirect [0, 0, 256, 0] :=
    .directCall rfl (by decide) (by decide) (by decide)
  have hSettles :=
    (accepted_unless_spilled extent hBounds).2 asm rfl
  refine ⟨hBounds, rfl, hLong, ?_, hWhole, ?_⟩
  · apply (hSettles _ _ hLong).1
    rintro ⟨_, base, count, hWindow, hEdge⟩
    cases hWindow
    exact absurd hEdge (by decide)
  · exact (hSettles _ _ hWhole).2
      ⟨Or.inl rfl, 0, 256, rfl, Or.inr rfl⟩

/-
  In a frame of 256 slots, a call may take the whole frame as its
  arguments, or none from its end: it makes sense, and the frame
  has all its slots. With the widths that are chosen for it neither
  can be emitted.
-/
theorem refused_window_of_full_frame :
    let extent : Extent := ⟨256, 7, 1⟩
    let frame : Frame := .new 256 0
    let asm : Assembler := { widths := extent.widths }
    extent.Bounded ∧ frame.slotCount = extent.slots ∧
      (extent.Allows .callVirtual [0, 0, 0, 256, 0] ∧
        Function.CallSlots.within ⟨0, 0, 256, 0⟩ frame = true ∧
        (Assembler.emit .callVirtual [0, 0, 0, 256, 0]).run asm =
          (.error (.range .callVirtual ⟨.count, 256⟩ 1), asm)) ∧
      extent.Allows .callVirtual [0, 0, 256, 0, 0] ∧
      Function.CallSlots.within ⟨0, 256, 0, 0⟩ frame = true ∧
      (Assembler.emit .callVirtual [0, 0, 256, 0, 0]).run asm =
        (.error (.range .callVirtual ⟨.slot, 256⟩ 1), asm) := by
  intro extent frame asm
  have hBounds : extent.Bounded :=
    ⟨by decide, by decide, by decide⟩
  have hSlots : frame.slotCount = 256 := Array.size_replicate
  refine ⟨hBounds, hSlots, ⟨?_, ?_, rfl⟩, ?_, ?_, rfl⟩
  · exact .virtualCall rfl (by decide) (by decide) (by decide)
      (by decide)
  · simp [Function.CallSlots.within, hSlots]
  · exact .virtualCall rfl (by decide) (by decide) (by decide)
      (by decide)
  · simp [Function.CallSlots.within, hSlots]

end Extent

end RegisterVM
