import RegisterVM.Dispatch.Body
import RegisterVM.Frame
import RegisterVM.Function.Basic

/-
  Calls made by the code of a function: the virtual call
  instruction, and the parts of a function that are evaluated
  from bodies.

  Key definitions include:
    * `CallError`
    * `CallState`
    * `Function.siteFor`
    * `Function.callVirtual`
    * `Statement.eval`
    * `Deferred.produce`
-/

namespace RegisterVM

------------------------------------------------------------
-- Faults
------------------------------------------------------------

/- Why a call instruction fails. -/
inductive CallError where
  | notDynamic (op : Opcode) (offset : Nat)
  | missingName
  | name (cause : Function.NameError)
  | missingOperand (position : Nat)
  | beyondFrame (offset slots : Nat)
  | fault (cause : Fault)
  deriving DecidableEq, Repr

/- The text of a call fault. -/
def CallError.message : CallError → String
  | notDynamic op offset =>
    s!"{op.mnemonic} at offset {offset} does not dispatch "
      ++ "through a call site"
  | missingName => "call instruction without method id"
  | name cause => cause.message
  | missingOperand position =>
    s!"{Opcode.callVirtual.mnemonic} missing operand {position}"
  | beyondFrame offset slots =>
    s!"call at offset {offset} addresses slots beyond the frame "
      ++ s!"({slots})"
  | fault cause => cause.message

------------------------------------------------------------
-- The virtual call
------------------------------------------------------------

/- What a call instruction works on. -/
structure CallState where
  function : Function
  frame : Frame
  machine : Machine

namespace Function

/- The site of a decoded call, made on first use. -/
def siteFor
    (fn : Function)
    (world : World)
    (instr : Instr) :
    Except CallError (SiteId × Function × World) := do
  unless instr.opcode.isDynamicCall do
    throw (.notDynamic instr.opcode instr.offset)
  let some id := instr.operand? 1
    | throw .missingName
  let name ← (fn.methodName id).mapError .name
  return fn.callSite world instr.offset name

/- The slots that a call instruction addresses. -/
structure CallSlots where
  receiver : Nat
  base : Nat
  count : Nat
  result : Nat
  deriving DecidableEq, Repr

/- An operand that a call cannot do without. -/
def callOperand
    (instr : Instr)
    (position : Nat) : Except CallError Nat :=
  match instr.operand? position with
  | some value => .ok value
  | none => .error (.missingOperand position)

/- The slots of a decoded call. -/
def callSlots
    (instr : Instr) : Except CallError CallSlots := do
  let receiver ← callOperand instr 0
  let base ← callOperand instr 2
  let count ← callOperand instr 3
  let result ← callOperand instr 4
  return { receiver, base, count, result }

/- Whether a frame has all slots of a call. -/
def CallSlots.within
    (slots : CallSlots)
    (frame : Frame) : Bool :=
  slots.base + slots.count ≤ frame.slotCount
    && slots.receiver < frame.slotCount
    && slots.result < frame.slotCount

/-
  Execute a decoded call: read the receiver and the arguments
  from the frame, dispatch through the site, store the result.
-/
def callVirtual
    (run : Runner)
    (instr : Instr)
    (s : CallState) : Except CallError Unit × CallState :=
  match s.function.siteFor s.machine.world instr with
  | .error e => (.error e, s)
  | .ok (id, function, world) =>
    let s := { s with function, machine := { s.machine with world } }
    match callSlots instr with
    | .error e => (.error e, s)
    | .ok slots =>
      if slots.within s.frame then
        let receiver := (s.frame.load? slots.receiver).getD .nil
        let args :=
          (s.frame.collect? slots.base slots.count).getD []
        let (result, machine) := (invokeSite run id receiver args).run s.machine
        let s := { s with machine }
        match result with
        | .error fault => (.error (.fault fault), s)
        | .ok value =>
          let frame := (s.frame.store? slots.result value).getD s.frame
          (.ok (), { s with frame })
      else
        (.error (.beyondFrame instr.offset s.frame.slotCount), s)

end Function

------------------------------------------------------------
-- Evaluated parts
------------------------------------------------------------

/- Why a statement ends without a value. -/
inductive StatementError where
  | slotRange (slot : Nat)
  | fault (cause : Fault)
  deriving DecidableEq, Repr

/- Store the values of a statement in the frame. -/
def Statement.storeAll
    (frame : Frame) : List (Nat × Expr) →
    Action (Except StatementError Unit × Frame)
  | [] => return (.ok (), frame)
  | (slot, e) :: rest => do
    let value ← e.eval .nil []
    match frame.store? slot value with
    | none => return (.error (.slotRange slot), frame)
    | some frame => Statement.storeAll frame rest

/-
  Evaluate a statement on a frame. The values of all slots are
  the arguments of its body.
-/
def Statement.eval
    (allowance : Nat)
    (s : Statement)
    (frame : Frame)
    (machine : Machine) :
    Except StatementError Value × Frame × Machine :=
  match (Statement.storeAll frame s.stores).run machine with
  | (.error fault, machine) => (.error (.fault fault), frame, machine)
  | (.ok (.error e, frame), machine) => (.error e, frame, machine)
  | (.ok (.ok (), frame), machine) =>
    match s.body with
    | none => (.ok .nil, frame, machine)
    | some body =>
      let (result, machine) :=
        (body.eval allowance .nil frame.values).run machine
      (result.mapError .fault, frame, machine)

/- Produce a deferred value. -/
def Deferred.produce
    (allowance : Nat)
    (d : Deferred) : Action Value :=
  d.body.eval allowance .nil []

end RegisterVM
