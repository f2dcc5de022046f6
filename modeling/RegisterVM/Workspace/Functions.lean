import RegisterVM.Function.Call
import RegisterVM.Workspace.Basic

/-
  Functions and frames of a workspace.

  Key definitions include:
    * `Session.newFunction`
    * `Session.callSiteAt?`
    * `Session.siteFor?`
    * `Session.callVirtual?`
    * `Session.evalStatement?`
    * `Session.changeSlot?`
-/

namespace RegisterVM

namespace Session

------------------------------------------------------------
-- Functions
------------------------------------------------------------

/- The function of a name. -/
def function?
    (handle : String) : Session (Option Function) :=
  return (← get).functions.lookup handle

/- Name a function. -/
def setFunction
    (handle : String)
    (fn : Function) : Session Unit :=
  modify fun w =>
    { w with functions := bindName w.functions handle fn }

/- Make a function of its parts and name it. -/
def newFunction
    (handle : String)
    (parts : FunctionParts) : Session (Except FunctionError Function) := do
  match Function.ofParts parts with
  | .error e => return .error e
  | .ok fn =>
    setFunction handle fn
    return .ok fn

/- The site of a function at an offset, made on first use. -/
def callSiteAt?
    (handle : String)
    (offset : Nat)
    (name : String) : Session (Option SiteId) := do
  let some fn ← function? handle
    | return none
  let w ← get
  let (id, fn, world) := fn.callSite w.world offset name
  set { w with world }
  setFunction handle fn
  return some id

/- The site of a decoded call, made on first use. -/
def siteFor?
    (handle : String)
    (instr : Instr) : Session (Option (Except CallError SiteId)) := do
  let some fn ← function? handle
    | return none
  let w ← get
  match fn.siteFor w.world instr with
  | .error e => return some (.error e)
  | .ok (id, fn, world) =>
    set { w with world }
    setFunction handle fn
    return some (.ok id)

------------------------------------------------------------
-- Frames
------------------------------------------------------------

/- The frame of a name. -/
def frame?
    (handle : String) : Session (Option Frame) :=
  return (← get).frames.lookup handle

/- Name a frame. -/
def setFrame
    (handle : String)
    (frame : Frame) : Session Unit :=
  modify fun w =>
    { w with frames := bindName w.frames handle frame }

/- Change one slot of a frame, if it has that slot. -/
def changeSlot?
    (handle : String)
    (slot : Nat)
    (change : Slot → Slot) : Session (Option Slot) := do
  let some frame ← frame? handle
    | return none
  match frame.modify? slot change with
  | none => return none
  | some frame =>
    setFrame handle frame
    return frame.slots[slot]?

------------------------------------------------------------
-- Calls
------------------------------------------------------------

/- Execute a decoded call of a function on a frame. -/
def callVirtual?
    (function frame context : String)
    (instr : Instr) : Session (Option (Except CallError Unit)) := do
  let some fn ← function? function
    | return none
  let some slots ← frame? frame
    | return none
  let w ← get
  let named := w.context context
  let (result, s) :=
    Function.callVirtual Workspace.runner instr
      { function := fn
        frame := slots
        machine := ⟨w.world, named.context⟩ }
  set { w with
    world := s.machine.world
    contexts :=
      bindName w.contexts context
        { named with context := s.machine.context } }
  setFunction function s.function
  setFrame frame s.frame
  return some result

/- Evaluate a statement of a function on a frame. -/
def evalStatement?
    (s : Statement)
    (frame context : String) :
    Session (Option (Except StatementError Value)) := do
  let some slots ← frame? frame
    | return none
  let w ← get
  let named := w.context context
  let (result, slots, machine) :=
    s.eval Workspace.allowance slots ⟨w.world, named.context⟩
  set { w with
    world := machine.world
    contexts :=
      bindName w.contexts context
        { named with context := machine.context } }
  setFrame frame slots
  return some result

end Session

end RegisterVM
