import RegisterVM.Encoding.Assembler

/-
  Assembly: a run of requests to one assembler. The labels of the
  jumps that were emitted are numbered from zero, and a later
  request may point a label at a target, as often as it likes.

  Key definitions include:
    * `AssemblyStep`
    * `AssemblyResult`
    * `Assembly`
    * `Assembly.step`
    * `Assembly.run`
-/

namespace RegisterVM

/- A request to an assembler. -/
inductive AssemblyStep where
  /- Append an instruction, a number of times. -/
  | emit (op : Opcode) (values : List Nat) (times : Nat)
  /- Append a jump whose target is still open. -/
  | jump (op : Opcode) (values : List Nat)
  /- Point a label at a target, or else at the end of the code. -/
  | patch (label : Nat) (target : Option Nat)
  deriving DecidableEq, Repr

/- What a request yields. -/
inductive AssemblyResult where
  | offset (value : Nat)
  | label (number instr : Nat)
  | target (value : Nat)
  deriving DecidableEq, Repr

/- An assembler and the labels it has given out. -/
structure Assembly where
  asm : Assembler
  labels : Array JumpLabel := #[]
  deriving DecidableEq, Repr

namespace Assembly

/-
  Carry out a request. Whatever comes of it, the assembly goes on
  with the assembler that the request leaves behind.
-/
def step
    (a : Assembly) :
    AssemblyStep → Except AssembleError AssemblyResult × Assembly
  | .emit op values times =>
    let (outcome, asm) :=
      (Assembler.emitTimes op values times).run a.asm
    (outcome.map .offset, { a with asm })
  | .jump op values =>
    match (Assembler.emitJump op values).run a.asm with
    | (.ok label, asm) =>
      (.ok (.label a.labels.size label.instr),
        { asm, labels := a.labels.push label })
    | (.error e, asm) => (.error e, { a with asm })
  | .patch number target =>
    match a.labels[number]? with
    | none => (.error (.noLabel number), a)
    | some label =>
      let target := target.getD a.asm.here
      let (outcome, asm) :=
        (Assembler.patch label target).run a.asm
      (outcome.map fun _ => .target target, { a with asm })

/-
  Carry out requests in order. Each outcome comes with the offset
  of the next instruction.
-/
def run
    (a : Assembly) :
    List AssemblyStep →
    List (Except AssembleError AssemblyResult × Nat) × Assembly
  | [] => ([], a)
  | request :: rest =>
    let (outcome, a) := a.step request
    let (outcomes, last) := a.run rest
    ((outcome, a.asm.here) :: outcomes, last)

end Assembly

end RegisterVM
