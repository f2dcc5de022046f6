import RegisterVM.Text.Quoted

/-
  Events that the machine reports while it works.

  Key definitions include:
    * `Trace.Level`
    * `Trace.Event`
    * `Trace.Event.line`
-/

namespace RegisterVM

namespace Trace

------------------------------------------------------------
-- Levels
------------------------------------------------------------

/- How important an event is. -/
inductive Level where
  | error
  | warn
  | info
  | debug
  | trace
  deriving DecidableEq, Repr

namespace Level

/- The detail of a level: more important levels come first. -/
def rank : Level → Nat
  | error => 1
  | warn => 2
  | info => 3
  | debug => 4
  | trace => 5

/- The word that starts a line of a level. -/
def text : Level → String
  | error => "ERROR"
  | warn => "WARN"
  | info => "INFO"
  | debug => "DEBUG"
  | trace => "TRACE"

end Level

------------------------------------------------------------
-- Events
------------------------------------------------------------

/- Something worth reporting. -/
inductive Event where
  | compiled
      (name : String) (locals args codeLen consts : Nat)
      (widths : String)
  | disassembled (bytes instrs : Nat)
  | promoted (site : String) (entries accesses misses : Nat)
  | demoted (site : String) (entries freeze : Nat)
  | missed (site : String) (key version : Nat) (route : String)
  | failureKept (site : String) (key version : Nat) (error : String)
  | simulated (calls hits misses : Nat)
  deriving DecidableEq, Repr

namespace Event

/- The level of an event. -/
def level : Event → Level
  | compiled .. | promoted .. | demoted .. | failureKept .. => .debug
  | disassembled .. | missed .. => .trace
  | simulated .. => .info

/- The part of the program that an event comes from. -/
def target : Event → String
  | compiled .. => "slotvm::function"
  | disassembled .. => "slotvm::disasm"
  | promoted .. | demoted .. | missed .. | failureKept .. =>
    "slotvm::pic"
  | simulated .. => "slotvm_cli"

/- What an event says. -/
def message : Event → String
  | compiled .. => "compiled function"
  | disassembled .. => "disassembled"
  | promoted _ entries .. => s!"promoted to {entries} entries"
  | demoted _ entries _ => s!"demoted to {entries} entries"
  | missed .. => "miss"
  | failureKept .. => "caching resolution failure"
  | simulated .. => "simulation finished"

/- The fields of an event, in order, with the text of each. -/
def fields : Event → List (String × String)
  | compiled name locals args codeLen consts widths =>
    [("name", name), ("locals", toString locals),
     ("args", toString args), ("code_len", toString codeLen),
     ("consts", toString consts), ("widths", widths)]
  | disassembled bytes instrs =>
    [("bytes", toString bytes), ("instrs", toString instrs)]
  | promoted site _ accesses misses =>
    [("site", Text.quote site), ("accesses", toString accesses),
     ("misses", toString misses)]
  | demoted site _ freeze =>
    [("site", Text.quote site), ("freeze", toString freeze)]
  | missed site key version route =>
    [("site", Text.quote site), ("key", toString key),
     ("version", toString version), ("invoker", Text.quote route)]
  | failureKept site key version error =>
    [("site", Text.quote site), ("key", toString key),
     ("version", toString version), ("error", error)]
  | simulated calls hits misses =>
    [("calls", toString calls), ("hits", toString hits),
     ("misses", toString misses)]

/- An event as one line of text. -/
def line
    (event : Event) : String :=
  let head :=
    s!"{event.level.text} {event.target}: {event.message}"
  " ".intercalate
    (head :: event.fields.map fun (name, value) => s!"{name}={value}")

end Event

end Trace

end RegisterVM
