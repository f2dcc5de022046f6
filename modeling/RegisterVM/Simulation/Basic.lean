import RegisterVM.Encoding.Assembler
import RegisterVM.Function.Call
import RegisterVM.Simulation.Pattern
import RegisterVM.Trace.Note

/-
  The simulation of one call site. A small function with a single
  virtual call is run again and again, on receivers whose classes
  follow a pattern. Every class declares the called method anew,
  and the method of a class yields the number of the class.

  Key definitions include:
    * `Simulation`
    * `SimulationError`
    * `Simulation.parts`
    * `Simulation.receivers`
    * `Simulation.step`
    * `Simulation.run`
-/

namespace RegisterVM

------------------------------------------------------------
-- Requests and results
------------------------------------------------------------

/- A simulation to run. -/
structure Simulation where
  classes : Nat := 4
  calls : Nat := 10000
  pattern : Pattern := .cycle
  tuning : Tuning := {}
  /- Whether the function is listed before it is run. -/
  listing : Bool := false
  deriving DecidableEq, Repr

/- Why a simulation has no result. -/
inductive SimulationError where
  | noClasses
  | widths (cause : WidthError)
  | assemble (cause : AssembleError)
  | function (cause : FunctionError)
  | listing (cause : Function.CodeError)
  | decode (cause : DecodeError)
  | call (cause : CallError)
  deriving DecidableEq, Repr

/- What a simulation fault says, and then its cause. -/
def SimulationError.chain : SimulationError → List String
  | noClasses => ["--classes must be at least 1"]
  | widths cause => [cause.message]
  | assemble cause => [cause.message]
  | function cause => cause.chain
  | listing cause => cause.chain
  | decode cause =>
    ["simulated function does not decode", cause.message]
  | call cause => [cause.message]

/- What a simulation finds out. -/
structure SimulationReport where
  pattern : Pattern
  classes : Nat
  calls : Nat
  /- The sum of all results. -/
  checksum : Int64
  tuning : Tuning
  dispatch : DispatchStats
  summary : Summary
  sites : List SiteReport
  deriving Repr

namespace Simulation

------------------------------------------------------------
-- The simulated function
------------------------------------------------------------

/- The name of the called method. -/
def method : String :=
  "step"

/- The instructions: call on slot 0, return the result. -/
def program : List (Opcode × List Nat) :=
  [(.callVirtual, [0, 0, 1, 0, 2]), (.ret, [2])]

/- Append instructions, as long as none is refused. -/
def emitProgram : List (Opcode × List Nat) → Assembling Unit
  | [] => return ()
  | (op, values) :: rest => do
    let _ ← Assembler.emit op values
    emitProgram rest

/- The code of some instructions at some widths. -/
def assemble
    (w : Widths)
    (instrs : List (Opcode × List Nat)) :
    Except SimulationError Code := do
  let asm ← (Assembler.new w).mapError .widths
  match (emitProgram instrs).run asm with
  | (.ok (), asm) => return asm.code
  | (.error e, _) => throw (.assemble e)

/- The widths of the simulated function. -/
def widths : Widths :=
  .fit 3 16 1

/- The parts of the simulated function. -/
def parts
    (tuning : Tuning)
    (code : Code) : FunctionParts where
  name := "pic_sim"
  localCount := 3
  widths := widths
  consts := #[.str method]
  code := code
  tuning := tuning

/- The simulated function. -/
def function
    (tuning : Tuning) : Except SimulationError Function := do
  let code ← assemble widths program
  (Function.ofParts (parts tuning code)).mapError .function

------------------------------------------------------------
-- Receivers
------------------------------------------------------------

/- An instance of a new class whose method yields a number. -/
def newReceiver
    (heap : Heap)
    (i : Nat) : Value × Heap :=
  let (cls, heap) := heap.newClass s!"Sim{i}" none
  let (body, heap) :=
    heap.newCallable method (.const (.int (Int64.ofNat i)))
  let heap := heap.defineMethod cls method .everyone (some body)
  let (receiver, heap) := heap.newInstance cls
  (.inst receiver, heap)

/- One receiver of each class. -/
def receivers
    (heap : Heap)
    (classes : Nat) : Array Value × Heap :=
  (List.range classes).foldl
    (fun (values, heap) i =>
      let (value, heap) := newReceiver heap i
      (values.push value, heap))
    (#[], heap)

/- The heap before the first class. Its first moment has passed. -/
def emptyHeap : Heap :=
  { epoch := 1 }

------------------------------------------------------------
-- Calls
------------------------------------------------------------

/- How far a simulation has come. -/
structure Progress where
  state : CallState
  checksum : Int64 := 0

/- Bodies nest no deeper than the method itself. -/
def runner : Runner :=
  Callable.call 1

/- Make one call and add its result to the checksum. -/
def step
    (instr : Instr)
    (progress : Progress)
    (receiver : Value) : Except SimulationError Progress := do
  let s := progress.state
  let frame :=
    (s.frame.modify? 0 fun slot => slot.setObject receiver).getD s.frame
  let (result, s) :=
    Function.callVirtual runner instr { s with frame }
  result.mapError .call
  let value := (s.frame.slots[2]?.map Slot.int).getD 0
  return { state := s, checksum := progress.checksum + value }

/- Make the calls of a pattern. -/
def callAll
    (sim : Simulation)
    (instr : Instr)
    (receivers : Array Value)
    (start : Progress) : Except SimulationError Progress :=
  (List.range sim.calls).foldlM
    (fun progress call =>
      step instr progress
        (receivers[sim.pattern.pick sim.classes call]?.getD .nil))
    start

------------------------------------------------------------
-- Runs
------------------------------------------------------------

/- The notes of listing a function. -/
def listingNotes
    (fn : Function)
    (heap : Heap) : Except SimulationError (List Trace.Note) := do
  let code ← fn.codeListing.mapError .listing
  let text ← (fn.listing heap).mapError .listing
  return [.event (.disassembled fn.code.size code.lines.length),
    .plain text]

/- The report on a finished simulation. -/
def report
    (sim : Simulation)
    (progress : Progress) : SimulationReport :=
  let s := progress.state
  let sites := s.function.siteReports s.machine.world
  { pattern := sim.pattern
    classes := sim.classes
    calls := sim.calls
    checksum := progress.checksum
    tuning := sim.tuning
    dispatch := s.machine.context.stats
    summary := .ofReports sites
    sites }

/- The notes of the calls, and of the end of a simulation. -/
def callNotes
    (sim : Simulation)
    (progress : Progress)
    (summary : Summary) : List Trace.Note :=
  let finished : Trace.Event :=
    .simulated sim.calls summary.hits summary.misses
  (progress.state.machine.world.events.reverse ++ [finished]).map
    .event

/-
  Run a simulation. Besides the report there are notes on what
  was done, in order.
-/
def run
    (sim : Simulation) :
    Except SimulationError (SimulationReport × List Trace.Note) := do
  if sim.classes = 0 then
    throw .noClasses
  let fn ← function sim.tuning
  let listed ← if sim.listing then listingNotes fn {} else pure []
  let (values, heap) := receivers emptyHeap sim.classes
  let instr ← (fn.decoder.decode fn.code 0).mapError .decode
  let progress ← sim.callAll instr values
    { state :=
        { function := fn
          frame := .new fn.localCount fn.argCount
          machine := { world := { heap }, context := {} } } }
  let report := sim.report progress
  return (report,
    [.event fn.compiledEvent] ++ listed
      ++ sim.callNotes progress report.summary)

end Simulation

end RegisterVM
