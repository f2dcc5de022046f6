import RegisterVM.Encoding.Assembly
import RegisterVM.Proofs.Encoding.Emission

/-
  From the assembler back through the decoder. A log says what
  was asked of an assembler and what came of it; the instructions
  that it calls for tile the code from end to end, with each jump
  pointing where its label was last pointed. Decoding the code
  yields these instructions and nothing else.

  Key definitions include:
    * `AssemblyLog`
    * `AssemblyLog.lastTarget`
    * `AssemblyLog.emitted`
    * `Assembly.Records`
    * `Assembly.Answers`

  Key theorems include:
    * `Assembly.answers_step`
    * `Assembly.Records.step`
    * `Assembly.Records.run`
    * `Assembly.walk_run`
-/

namespace RegisterVM

------------------------------------------------------------
-- Logs
------------------------------------------------------------

/- Requests to an assembler, each with what came of it. -/
abbrev AssemblyLog :=
  List (AssemblyStep × Except AssembleError AssemblyResult)

namespace AssemblyLog

/-
  Where a label points: to the target of its last successful
  patch, and to zero before the first.
-/
def lastTarget
    (log : AssemblyLog)
    (number : Nat) : Nat :=
  log.foldl
    (fun target entry =>
      match entry with
      | (.patch label _, .ok (.target latest)) =>
        if label = number then latest else target
      | _ => target)
    0

/-
  The instructions of one request, given where labels point. The
  offset of a repeated instruction is that of its last copy.
-/
def emittedBy
    (w : Widths)
    (targets : Nat → Nat) :
    AssemblyStep × Except AssembleError AssemblyResult → List Instr
  | (.emit op values times, .ok (.offset last)) =>
    repeated w op values times (last - (times - 1) * w.instrLen op)
  | (.jump op values, .ok (.label number instr)) =>
    [instrAt w instr op (values ++ [targets number])]
  | _ => []

/- The instructions that successful requests have emitted. -/
def emitted
    (w : Widths)
    (targets : Nat → Nat)
    (log : AssemblyLog) : List Instr :=
  log.flatMap (emittedBy w targets)

variable {w : Widths}

theorem emitted_append
    (targets : Nat → Nat)
    (log log' : AssemblyLog) :
    emitted w targets (log ++ log') =
      emitted w targets log ++ emitted w targets log' :=
  List.flatMap_append

theorem emitted_singleton
    (targets : Nat → Nat)
    (entry : AssemblyStep × Except AssembleError AssemblyResult) :
    emitted w targets [entry] = emittedBy w targets entry := by
  simp [emitted]

/- Targets in the range of jumps. -/
def Reaches
    (w : Widths)
    (targets : Nat → Nat) : Prop :=
  ∀ number, targets number ≤ w.maxValue .ip

/- A part of a log that has nothing to do with a label. -/
def Apart
    (w : Widths)
    (number : Nat)
    (log : AssemblyLog) : Prop :=
  ∀ targets target,
    emitted w (Function.update targets number target) log =
      emitted w targets log

theorem Apart.append
    {number : Nat}
    {log log' : AssemblyLog}
    (hFirst : Apart w number log)
    (hSecond : Apart w number log') :
    Apart w number (log ++ log') := by
  intro targets target
  rw [emitted_append, emitted_append, hFirst, hSecond]

/- A patch that succeeds points its label anew. -/
theorem lastTarget_patch
    (log : AssemblyLog)
    (number : Nat)
    (asked : Option Nat)
    (target : Nat) :
    lastTarget
        (log ++ [(.patch number asked, .ok (.target target))]) =
      Function.update (lastTarget log) number target := by
  funext other
  rw [lastTarget, List.foldl_append, Function.update_apply]
  by_cases hOther : other = number
  · simp [hOther]
  · have hNe : number ≠ other := fun h => hOther h.symm
    simp [hOther, hNe, lastTarget]

/- A label matters only to the jump that it was given out for. -/
theorem apart_of_ne
    {w : Widths}
    {op : Opcode}
    {values : List Nat}
    {number other instr : Nat}
    (hNe : other ≠ number) :
    Apart w other [(.jump op values, .ok (.label number instr))] := by
  intro targets target
  rw [emitted_singleton, emitted_singleton, emittedBy, emittedBy,
    Function.update_of_ne hNe.symm]

/- A label of a jump, and the only place where it matters. -/
def Placed
    (w : Widths)
    (log : AssemblyLog)
    (number : Nat)
    (label : JumpLabel) : Prop :=
  ∃ before op values after,
    log =
        before ++
          (.jump op values, .ok (.label number label.instr)) ::
            after ∧
      Apart w number before ∧ Apart w number after ∧
      op.operands.getLast? = some .ip ∧
      (values ++ [0]).length = op.operands.length ∧
      label.operandAt =
        label.instr + w.instrLen op - w.ip.toNat

theorem Placed.append
    {w : Widths}
    {log log' : AssemblyLog}
    {number : Nat}
    {label : JumpLabel}
    (hPlaced : Placed w log number label)
    (hApart : Apart w number log') :
    Placed w (log ++ log') number label := by
  rcases hPlaced with
    ⟨before, op, values, after, hLog, hBefore, hAfter, hShape⟩
  refine ⟨before, op, values, after ++ log', ?_, hBefore,
    hAfter.append hApart, hShape⟩
  rw [hLog, List.append_assoc, List.cons_append]

end AssemblyLog

------------------------------------------------------------
-- Assemblies And Their Logs
------------------------------------------------------------

namespace Assembly

open AssemblyLog

/-
  An assembly is as its log says: its code is tiled by the
  instructions that the log calls for, with every jump pointing
  to the last target of its label.
-/
structure Records
    (w : Widths)
    (log : AssemblyLog)
    (a : Assembly) : Prop where
  widths : a.asm.widths = w
  code :
    a.asm.code.toList =
      encoded w (emitted w (lastTarget log) log)
  reaches : Reaches w (lastTarget log)
  tiles :
    ∀ targets, Reaches w targets →
      Tiles w 0 (emitted w targets log) a.asm.here
  placed :
    ∀ (number : Nat) (label : JumpLabel),
      a.labels[number]? = some label →
        Placed w log number label
  fresh :
    ∀ number, a.labels.size ≤ number →
      lastTarget log number = 0 ∧ Apart w number log

variable {w : Widths} {log : AssemblyLog} {a a' : Assembly}

/- A fresh assembly is as an empty log says. -/
theorem records_nil
    (w : Widths) :
    Records w [] { asm := { widths := w } } where
  widths := rfl
  code := rfl
  reaches _ := Nat.zero_le _
  tiles _ _ := .nil 0
  placed number label hLabel := by
    simp at hLabel
  fresh _ _ := ⟨rfl, fun _ _ => rfl⟩

/- A request that adds its instructions to the end of the code. -/
theorem Records.extend
    (hRecords : Records w log a)
    {entry : AssemblyStep × Except AssembleError AssemblyResult}
    (hTargets : lastTarget (log ++ [entry]) = lastTarget log)
    (hWidths : a'.asm.widths = w)
    (hCode :
      a'.asm.code.toList =
        a.asm.code.toList ++
          encoded w (emittedBy w (lastTarget log) entry))
    (hTiles :
      ∀ targets, Reaches w targets →
        Tiles w a.asm.here (emittedBy w targets entry)
          a'.asm.here)
    (hPlaced :
      ∀ (number : Nat) (label : JumpLabel),
        a'.labels[number]? = some label →
          Placed w (log ++ [entry]) number label)
    (hLabels : a.labels.size ≤ a'.labels.size)
    (hApart :
      ∀ number, a'.labels.size ≤ number →
        Apart w number [entry]) :
    Records w (log ++ [entry]) a' where
  widths := hWidths
  code := by
    rw [hTargets, emitted_append, emitted_singleton, hCode,
      hRecords.code, encoded, encoded, encoded,
      List.flatMap_append]
  reaches := by
    rw [hTargets]
    exact hRecords.reaches
  tiles targets hReaches := by
    rw [emitted_append, emitted_singleton]
    exact (hRecords.tiles targets hReaches).append
      (hTiles targets hReaches)
  placed := hPlaced
  fresh number hNumber := by
    rcases hRecords.fresh number (Nat.le_trans hLabels hNumber)
      with ⟨hUnset, hBefore⟩
    rw [hTargets]
    exact ⟨hUnset, hBefore.append (hApart number hNumber)⟩

/- A request whose instructions hang on no label. -/
theorem Records.extend_fixed
    (hRecords : Records w log a)
    {entry : AssemblyStep × Except AssembleError AssemblyResult}
    {instrs : List Instr}
    {asm : Assembler}
    (hTargets : lastTarget (log ++ [entry]) = lastTarget log)
    (hEmitted : ∀ targets, emittedBy w targets entry = instrs)
    (hWidths : asm.widths = w)
    (hCode :
      asm.code.toList = a.asm.code.toList ++ encoded w instrs)
    (hTiles : Tiles w a.asm.here instrs asm.here) :
    Records w (log ++ [entry]) { a with asm } := by
  have hApart : ∀ number, Apart w number [entry] := by
    intro number targets target
    rw [emitted_singleton, emitted_singleton, hEmitted, hEmitted]
  apply hRecords.extend hTargets hWidths
  · rw [hEmitted]
    exact hCode
  · intro targets _
    rw [hEmitted]
    exact hTiles
  · intro number label hLabel
    exact (hRecords.placed number label hLabel).append
      (hApart number)
  · exact Nat.le_refl _
  · intro number _
    exact hApart number

/- A request that fails leaves everything as it is. -/
theorem Records.fail
    (hRecords : Records w log a)
    (request : AssemblyStep)
    (e : AssembleError) :
    Records w (log ++ [(request, .error e)]) a := by
  apply hRecords.extend_fixed
  · funext number
    cases request <;> simp [lastTarget]
  · intro targets
    show _ = []
    cases request <;> rfl
  · exact hRecords.widths
  · exact (List.append_nil _).symm
  · exact .nil _

/- An instruction goes to the end, as often as it was asked for. -/
theorem Records.emit
    (hRecords : Records w log a)
    {op : Opcode}
    {values : List Nat}
    {times offset : Nat}
    {asm : Assembler}
    (hEmit :
      (Assembler.emitTimes op values times).run a.asm =
        (.ok offset, asm)) :
    Records w
      (log ++ [(.emit op values times, .ok (.offset offset))])
      { a with asm } := by
  rcases Assembler.emitTimes_eq_ok hRecords.widths hEmit with
    ⟨hFirst, hWidths, hCode, hTiles⟩
  refine hRecords.extend_fixed ?_ ?_ hWidths hCode hTiles
  · funext number
    simp [lastTarget]
  · intro targets
    rw [emittedBy, hFirst]

/- A jump goes to the end and is given the next label. -/
theorem Records.jump
    (hRecords : Records w log a)
    {op : Opcode}
    {values : List Nat}
    {label : JumpLabel}
    {asm : Assembler}
    (hJump :
      (Assembler.emitJump op values).run a.asm =
        (.ok label, asm)) :
    Records w
      (log ++
        [(.jump op values, .ok (.label a.labels.size label.instr))])
      { asm, labels := a.labels.push label } := by
  rcases Assembler.emitJump_eq_ok hJump with
    ⟨hLast, hEmit, hOperandAt⟩
  have hHere := Assembler.here_emit hRecords.widths hEmit
  rcases Assembler.emit_eq_ok hEmit with
    ⟨hInstr, hWidths, hCode, hLength, hHolds⟩
  rw [hRecords.widths] at hWidths hCode hHolds
  rcases hRecords.fresh a.labels.size (Nat.le_refl _) with
    ⟨hUnset, hApart⟩
  apply hRecords.extend
  · funext number
    simp [lastTarget]
  · exact hWidths
  · rw [emittedBy, hUnset]
    simpa [encoded, instrAt] using hCode
  · intro targets hReaches
    rw [emittedBy, hInstr, hHere]
    have hAny :=
      Assembler.holds_target hLast hLength hHolds
        (hReaches a.labels.size)
    exact .cons hAny (.nil _)
  · intro number other hOther
    rw [Array.getElem?_push] at hOther
    by_cases hNumber : number = a.labels.size
    · rw [if_pos hNumber] at hOther
      cases hOther
      subst hNumber
      refine ⟨log, op, values, [], rfl, hApart, fun _ _ => rfl,
        hLast, hLength, ?_⟩
      rw [hOperandAt, hHere, hWidths, hInstr]
    · rw [if_neg hNumber] at hOther
      exact (hRecords.placed number other hOther).append
        (apart_of_ne hNumber)
  · simp
  · intro number hNumber
    rw [Array.size_push] at hNumber
    exact apart_of_ne (Nat.ne_of_gt hNumber)

/- Pointing a label elsewhere rewrites its jump and no more. -/
theorem Records.overwrite
    (hRecords : Records w log a)
    {number : Nat}
    {label : JumpLabel}
    (hLabel : a.labels[number]? = some label)
    (target : Nat) :
    (Assembler.overwrite a.asm.code label.operandAt
        (bytesLE a.asm.widths.ip.toNat target)).toList =
      encoded w
        (emitted w
          (Function.update (lastTarget log) number target) log) := by
  rcases hRecords.placed number label hLabel with
    ⟨before, op, values, after, hLog, hBefore, hAfter, hLast,
      hLength, hOperandAt⟩
  have hSplit :
      ∀ targets,
        emitted w targets log =
          emitted w targets before ++
            instrAt w label.instr op (values ++ [targets number]) ::
              emitted w targets after := by
    intro targets
    rw [hLog, emitted_append]
    rfl
  have hTiles := hRecords.tiles _ hRecords.reaches
  have hCode := hRecords.code
  rw [hSplit] at hTiles hCode
  rcases hTiles.of_append with ⟨middle, hFront, hBack⟩
  -- The tiles before the jump end where the jump begins.
  have hOffset : middle = label.instr := by
    cases hBack with
    | cons _ _ => rfl
  have hHolds :
      w.Holds op.operands
        (Assembler.tagged op
          (values ++ [lastTarget log number])) := by
    cases hBack with
    | cons hHolds _ => exact hHolds
  have hLead := hFront.length_encoded
  rw [Nat.zero_add, hOffset] at hLead
  have hPlace :
      a.asm.code.toList =
        encoded w (emitted w (lastTarget log) before) ++
          Assembler.instrBytes w op
            (Assembler.tagged op
              (values ++ [lastTarget log number])) ++
            encoded w (emitted w (lastTarget log) after) := by
    rw [hCode]
    simp [encoded, instrAt]
  have hDone :=
    Assembler.overwrite_target hLast hLength hHolds hPlace
      target
  rw [hOperandAt, ← hLead, hRecords.widths, hDone, hSplit,
    hBefore, hAfter, Function.update_self]
  simp [encoded, instrAt]

/- A patched jump points to its new target, the others stay. -/
theorem Records.patch
    (hRecords : Records w log a)
    {number target : Nat}
    {asked : Option Nat}
    {label : JumpLabel}
    {asm : Assembler}
    (hLabel : a.labels[number]? = some label)
    (hPatch :
      (Assembler.patch label target).run a.asm = (.ok (), asm)) :
    Records w
      (log ++ [(.patch number asked, .ok (.target target))])
      { a with asm } := by
  have hSilent :
      ∀ targets,
        emitted w targets
            (log ++ [(.patch number asked, .ok (.target target))]) =
          emitted w targets log := by
    intro targets
    rw [emitted_append]
    exact List.append_nil _
  rcases Assembler.patch_eq_ok hPatch with ⟨hTarget, rfl⟩
  refine ⟨hRecords.widths, ?_, ?_, ?_, ?_, ?_⟩
  · rw [lastTarget_patch, hSilent]
    exact hRecords.overwrite hLabel target
  · rw [lastTarget_patch]
    intro other
    by_cases hOther : other = number
    · rw [hOther, Function.update_self, ← hRecords.widths]
      exact hTarget
    · rw [Function.update_of_ne hOther]
      exact hRecords.reaches other
  · intro targets hReaches
    rw [hSilent, Assembler.here, Assembler.size_overwrite]
    exact hRecords.tiles targets hReaches
  · intro other label' hOther
    exact (hRecords.placed other label' hOther).append
      fun _ _ => rfl
  · intro other hOther
    rcases hRecords.fresh other hOther with ⟨hUnset, hApart⟩
    have hNumber : number < a.labels.size :=
      (Array.getElem?_eq_some_iff.mp hLabel).1
    have hNe : other ≠ number :=
      Nat.ne_of_gt (Nat.lt_of_lt_of_le hNumber hOther)
    rw [lastTarget_patch, Function.update_of_ne hNe]
    exact ⟨hUnset, hApart.append fun _ _ => rfl⟩

------------------------------------------------------------
-- Runs
------------------------------------------------------------

/-
  What a request may come to: it is refused and nothing changes,
  or it is carried out by the assembler.
-/
inductive Answers
    (a : Assembly) :
    AssemblyStep →
    Except AssembleError AssemblyResult × Assembly → Prop where
  | refused (request : AssemblyStep) (e : AssembleError) :
    Answers a request (.error e, a)
  | emit {op : Opcode} {values : List Nat} {times offset : Nat}
      {asm : Assembler}
      (hEmit :
        (Assembler.emitTimes op values times).run a.asm =
          (.ok offset, asm)) :
    Answers a (.emit op values times)
      (.ok (.offset offset), { a with asm })
  | jump {op : Opcode} {values : List Nat} {label : JumpLabel}
      {asm : Assembler}
      (hJump :
        (Assembler.emitJump op values).run a.asm =
          (.ok label, asm)) :
    Answers a (.jump op values)
      (.ok (.label a.labels.size label.instr),
        { asm, labels := a.labels.push label })
  | patch {number target : Nat} {asked : Option Nat}
      {label : JumpLabel} {asm : Assembler}
      (hLabel : a.labels[number]? = some label)
      (hPatch :
        (Assembler.patch label target).run a.asm = (.ok (), asm)) :
    Answers a (.patch number asked)
      (.ok (.target target), { a with asm })

theorem answers_step
    (a : Assembly)
    (request : AssemblyStep) :
    a.Answers request (a.step request) := by
  cases request with
  | emit op values times =>
      rw [step]
      rcases hEmit :
          (Assembler.emitTimes op values times).run a.asm with
        ⟨e | offset, asm⟩
      · rw [(Assembler.emit_of_emitTimes_error hEmit).2]
        exact .refused _ e
      · exact .emit hEmit
  | jump op values =>
      rw [step]
      rcases hJump : (Assembler.emitJump op values).run a.asm with
        ⟨e | label, asm⟩
      · rw [Assembler.atomic_emitJump op values a.asm e asm hJump]
        exact .refused _ e
      · exact .jump hJump
  | patch number asked =>
      rw [step]
      cases hLabel : a.labels[number]? with
      | none => exact .refused _ _
      | some label =>
          dsimp only
          rcases hPatch :
              (Assembler.patch label (asked.getD a.asm.here)).run
                a.asm with
            ⟨e | _, asm⟩
          · rw [Assembler.atomic_patch label _ a.asm e asm hPatch]
            exact .refused _ e
          · exact .patch hLabel hPatch

/- A refused request changes nothing. -/
theorem step_eq_error
    {request : AssemblyStep}
    {e : AssembleError}
    (hError : (a.step request).1 = .error e) :
    (a.step request).2 = a := by
  have hAnswers := a.answers_step request
  generalize a.step request = done at hAnswers hError ⊢
  cases hAnswers with
  | refused => rfl
  | emit | jump | patch => cases hError

/- A refused repetition is refused as a single instruction. -/
theorem emit_of_step_error
    {op : Opcode}
    {values : List Nat}
    {times : Nat}
    {e : AssembleError}
    (hError : (a.step (.emit op values times)).1 = .error e) :
    (Assembler.emit op values).run a.asm = (.error e, a.asm) := by
  rw [step] at hError
  rcases hEmit :
      (Assembler.emitTimes op values times).run a.asm with
    ⟨e' | offset, asm⟩
  · rw [hEmit] at hError
    cases hError
    exact (Assembler.emit_of_emitTimes_error hEmit).1
  · rw [hEmit] at hError
    cases hError

/- Every request leaves an assembly as its log says. -/
theorem Records.step
    (hRecords : Records w log a)
    (request : AssemblyStep) :
    Records w (log ++ [(request, (a.step request).1)])
      (a.step request).2 := by
  have hAnswers := a.answers_step request
  generalize a.step request = done at hAnswers ⊢
  cases hAnswers with
  | refused _ e => exact hRecords.fail request e
  | emit hEmit => exact hRecords.emit hEmit
  | jump hJump => exact hRecords.jump hJump
  | patch hLabel hPatch => exact hRecords.patch hLabel hPatch

/- Requests to an assembly, each with what comes of it. -/
def logged
    (a : Assembly)
    (requests : List AssemblyStep) : AssemblyLog :=
  requests.zip ((a.run requests).1.map Prod.fst)

/- A run leaves an assembly as its log says. -/
theorem Records.run
    {past : AssemblyLog}
    (hRecords : Records w past a)
    (requests : List AssemblyStep) :
    Records w (past ++ a.logged requests) (a.run requests).2 := by
  induction requests generalizing past a with
  | nil =>
      rw [logged, List.zip_nil_left, List.append_nil]
      exact hRecords
  | cons request rest ih =>
      have hRest := ih (hRecords.step request)
      rw [List.append_assoc] at hRest
      exact hRest

/-
  Decoding assembled code yields, without a fault, just the
  instructions of the requests that succeeded, in order and at
  the offsets they were given; jumps point to the last target of
  their labels, or to zero. A request that is refused leaves the
  code as it was, and one for copies is refused at the first. So
  does a refused call on any assembler, whatever was done to it.
-/
theorem walk_run
    {w : Widths}
    (hValid : w.Valid)
    (requests : List AssemblyStep) :
    ∃ asm decoder,
      Assembler.new w = .ok asm ∧
      Decoder.ofWidths w = .ok decoder ∧
      decoder.walk (run { asm } requests).2.asm.code =
        ((emitted w (lastTarget (logged { asm } requests))
            (logged { asm } requests)).map .ok,
          { ip := (run { asm } requests).2.asm.code.size }) ∧
      (∀ request e,
        ((run { asm } requests).2.step request).1 = .error e →
          ((run { asm } requests).2.step request).2.asm.code =
            (run { asm } requests).2.asm.code) ∧
      (∀ op values times e,
        ((run { asm } requests).2.step
            (.emit op values times)).1 = .error e →
          (Assembler.emit op values).run
              (run { asm } requests).2.asm =
            (.error e, (run { asm } requests).2.asm)) ∧
      (∀ op values, (Assembler.emit op values).Atomic) ∧
      (∀ op values, (Assembler.emitJump op values).Atomic) ∧
      ∀ label target, (Assembler.patch label target).Atomic := by
  rcases Decoder.ofWidths_of_valid hValid with
    ⟨decoder, hDecoder, hWidths⟩
  refine ⟨{ widths := w }, decoder, ?_, hDecoder, ?_, ?_, ?_,
    Assembler.atomic_emit, Assembler.atomic_emitJump,
    Assembler.atomic_patch⟩
  · rw [Assembler.new, (Widths.check_eq_ok_iff w).mpr hValid]
    rfl
  · have hRecords := (records_nil w).run requests
    rw [List.nil_append] at hRecords
    have hTiles := hRecords.tiles _ hRecords.reaches
    exact Decoder.walk_of_tiles hValid hWidths hTiles
      hRecords.code
  · intro request e hError
    rw [step_eq_error hError]
  · intro op values times e hError
    exact emit_of_step_error hError

/- Repeated, refused and patched requests, at narrow widths. -/
def mixedRequests : List AssemblyStep :=
  [.emit .moveInt [1, 2] 2,
   .jump .jmpIfTrue [5],
   .emit .moveInt [1, 256] 1,
   .patch 0 (some 3),
   .patch 0 (some 70000),
   .patch 1 none,
   .jump .jmp [],
   .emit .retVoid [] 1,
   .patch 0 none]

theorem walk_run_of_mixedRequests :
    Widths.compact.Valid ∧
      ∃ asm decoder,
        Assembler.new .compact = .ok asm ∧
        Decoder.ofWidths .compact = .ok decoder ∧
        decoder.walk (run { asm } mixedRequests).2.asm.code =
          ([.ok ⟨0, .moveInt, [⟨.slot, 1⟩, ⟨.slot, 2⟩], 3⟩,
            .ok ⟨3, .moveInt, [⟨.slot, 1⟩, ⟨.slot, 2⟩], 6⟩,
            .ok ⟨6, .jmpIfTrue, [⟨.slot, 5⟩, ⟨.ip, 14⟩], 10⟩,
            .ok ⟨10, .jmp, [⟨.ip, 0⟩], 13⟩,
            .ok ⟨13, .retVoid, [], 14⟩],
            { ip := 14 }) ∧
        ((run { asm } mixedRequests).2.step
            (.patch 0 (some 70000))).1 =
          .error (.target 70000 2) ∧
        ((run { asm } mixedRequests).2.step
            (.patch 0 (some 70000))).2.asm.code =
          (run { asm } mixedRequests).2.asm.code := by
  have hValid : Widths.compact.Valid := by decide
  rcases walk_run hValid mixedRequests with
    ⟨asm, decoder, hNew, hDecoder, hWalk, hKeep, _, _, _, _⟩
  have hAsm : asm = { widths := .compact } := by
    cases hNew
    rfl
  subst hAsm
  have hError :
      ((run { asm := { widths := .compact } } mixedRequests).2.step
          (.patch 0 (some 70000))).1 =
        .error (.target 70000 2) := by
    decide +kernel
  refine ⟨hValid, _, decoder, hNew, hDecoder, ?_, hError,
    hKeep _ _ hError⟩
  rw [hWalk]
  decide +kernel

end Assembly

end RegisterVM
