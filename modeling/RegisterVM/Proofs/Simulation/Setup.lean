import RegisterVM.Proofs.Object.Versions
import RegisterVM.Simulation.Basic

/-
  What a simulation starts with: the simulated function, whose code
  is the same for all tunings, and one receiver of each of so many
  classes, which answers the call with the number of its class.

  Key definitions include:
    * `Simulation.code`
    * `Simulation.instr`
    * `Simulation.simulated`
    * `Simulation.Answers`
    * `Simulation.Made`

  Key theorems include:
    * `Pattern.pick_lt`
    * `Simulation.function_eq`
    * `Simulation.exists_listingNotes`
    * `Simulation.made_receivers`
-/

namespace RegisterVM

/- A pattern picks one of the classes. -/
theorem Pattern.pick_lt
    (p : Pattern)
    {classes : Nat}
    (hClasses : 1 ≤ classes)
    (call : Nat) :
    p.pick classes call < classes := by
  cases p with
  | mono => exact hClasses
  | cycle => exact Nat.mod_lt _ hClasses
  | skewed =>
      rw [Pattern.pick]
      split
      next => exact Nat.mod_lt _ hClasses
      next => exact hClasses

namespace Simulation

------------------------------------------------------------
-- The Simulated Function
------------------------------------------------------------

/- The code of the simulated function. -/
def code : Code :=
  #[71, 0, 0, 0, 1, 0, 2, 65, 2]

/- The call in that code. -/
def instr : Instr where
  offset := 0
  opcode := .callVirtual
  operands :=
    [⟨.slot, 0⟩, ⟨.id, 0⟩, ⟨.slot, 1⟩, ⟨.count, 0⟩, ⟨.slot, 2⟩]
  next := 7

/- The simulated function, before any call. -/
def simulated
    (tuning : Tuning) : Function where
  name := "pic_sim"
  localCount := 3
  argCount := 0
  scope := {}
  widths := widths
  decoder := .slot8 2 2
  consts := #[.str method]
  statements := #[]
  code := code
  tuning := tuning

theorem assemble_program :
    assemble widths program = .ok code := by
  rfl

/- A tuning that is accepted makes a function. -/
theorem function_eq
    {tuning : Tuning}
    (hTuning : tuning.check = .ok ()) :
    function tuning = .ok (simulated tuning) := by
  unfold function
  rw [assemble_program]
  show
    (Function.ofParts (parts tuning code)).mapError _ = _
  unfold Function.ofParts
  simp only [parts, hTuning]
  rfl

theorem decode_code
    (tuning : Tuning) :
    (simulated tuning).decoder.decode (simulated tuning).code 0 =
      .ok instr := by
  rfl

/- The simulated function can be listed. -/
theorem exists_listingNotes
    (tuning : Tuning)
    (heap : Heap) :
    ∃ notes, listingNotes (simulated tuning) heap = .ok notes := by
  exact ⟨_, rfl⟩

------------------------------------------------------------
-- Receivers
------------------------------------------------------------

/-
  A value that answers the call with a number: an instance of a
  class without ancestors that has the one method.
-/
structure Answers
    (heap : Heap)
    (receiver : Value)
    (number : Nat) : Prop where
  receiver :
    ∃ object, receiver = .inst ⟨object, number + 1⟩
  lineage : heap.lineage (number + 1) = [number + 1]
  methods :
    ∃ ident,
      heap.methods (number + 1) =
        [⟨method, .everyone, number + 1,
          some
            ⟨ident, method, .const (.int (Int64.ofNat number))⟩⟩]

namespace Answers

variable {heap heap' : Heap} {receiver : Value} {number : Nat}

/- What is read of a class is there as long as the class is. -/
theorem of_class?
    (hAnswers : Answers heap receiver number)
    (hClass :
      heap'.class? (number + 1) = heap.class? (number + 1)) :
    Answers heap' receiver number where
  receiver := hAnswers.receiver
  lineage := by
    rw [Heap.lineage, hClass]
    exact hAnswers.lineage
  methods := by
    rw [Heap.methods, hClass]
    exact hAnswers.methods

theorem of_bare_eq
    (hAnswers : Answers heap receiver number)
    (hBare : heap'.bare = heap.bare) :
    Answers heap' receiver number where
  receiver := hAnswers.receiver
  lineage := by
    rw [← heap'.lineage_bare, hBare, heap.lineage_bare]
    exact hAnswers.lineage
  methods := by
    rw [← heap'.methods_bare, hBare, heap.methods_bare]
    exact hAnswers.methods

/- The method is found on the class itself. -/
theorem nearest?
    (hAnswers : Answers heap receiver number) :
    ∃ ident,
      heap.nearest? (heap.lineage (number + 1)) method =
        some
          ⟨method, .everyone, number + 1,
            some
              ⟨ident, method,
                .const (.int (Int64.ofNat number))⟩⟩ := by
  rcases hAnswers.methods with ⟨ident, hMethods⟩
  refine ⟨ident, ?_⟩
  rw [hAnswers.lineage, Heap.nearest?, List.findSome?_cons,
    ← Heap.findMethod?_methods, hMethods]
  rfl

end Answers

/- The steps that make a receiver. -/
theorem newReceiver_eq_run
    (heap : Heap)
    (number : Nat) :
    (newReceiver heap number).2 =
      heap.run
        [.newClass s!"Sim{number}" none, .newObject,
          .define (heap.classes.size + 1) method .everyone
            (some
              ⟨heap.objects, method,
                .const (.int (Int64.ofNat number))⟩),
          .newObject] :=
  rfl

/- The class of a new receiver is the only one that changes. -/
theorem class?_newReceiver
    (heap : Heap)
    (number : Nat)
    (id : ClassId) :
    (newReceiver heap number).2.class? id =
      if id = heap.classes.size + 1 then
        some
          { id := heap.classes.size + 1
            name := s!"Sim{number}"
            lineage := [heap.classes.size + 1]
            stamp := heap.epoch + 2
            methods :=
              [⟨method, .everyone, heap.classes.size + 1,
                some
                  ⟨heap.objects, method,
                    .const (.int (Int64.ofNat number))⟩⟩] }
      else
        heap.class? id := by
  have hCreated := heap.class?_newClass s!"Sim{number}" none
  let created : Heap :=
    { (heap.newClass s!"Sim{number}" none).2 with
      objects := heap.objects + 1 }
  have hHere :
      created.class? (heap.classes.size + 1) =
        some
          { id := heap.classes.size + 1
            name := s!"Sim{number}"
            lineage := [heap.classes.size + 1]
            stamp := heap.epoch + 1 } :=
    (hCreated _).trans (if_pos rfl)
  have hDefined :=
    Heap.class?_modifyMembers hHere
      (fun c =>
        c.insertMethod method .everyone
          (some
            ⟨heap.objects, method,
              .const (.int (Int64.ofNat number))⟩))
      id
  refine hDefined.trans ?_
  split
  next => rfl
  next hOther =>
    exact (hCreated id).trans (if_neg hOther)

theorem size_newReceiver
    (heap : Heap)
    (number : Nat) :
    (newReceiver heap number).2.classes.size =
      heap.classes.size + 1 := by
  have hLast :=
    class?_newReceiver heap number (heap.classes.size + 1)
  rw [if_pos rfl] at hLast
  have hPast :=
    class?_newReceiver heap number (heap.classes.size + 1 + 1)
  rw [if_neg (Nat.succ_ne_self _), Heap.class?_succ,
    Heap.class?_succ,
    Array.getElem?_eq_none (Nat.le_succ heap.classes.size)]
    at hPast
  exact Nat.le_antisymm (Array.getElem?_eq_none_iff.mp hPast)
    (Heap.le_size_of_class? hLast)

/- One more receiver answers with the number of its class. -/
theorem newReceiver_answers
    {heap : Heap}
    {number : Nat}
    (hSize : heap.classes.size = number) :
    Answers (newReceiver heap number).2
      (newReceiver heap number).1 number := by
  have hClass := class?_newReceiver heap number (number + 1)
  rw [hSize, if_pos rfl] at hClass
  refine ⟨?_, ?_, ⟨heap.objects, ?_⟩⟩
  · rw [← hSize]
    exact ⟨_, rfl⟩
  · rw [Heap.lineage_of_class? hClass]
  · rw [Heap.methods, hClass]
    rfl

theorem coherent_emptyHeap :
    emptyHeap.Coherent := by
  have hNone : ∀ id, emptyHeap.class? id = none := by
    intro id
    cases id <;> rfl
  refine ⟨⟨?_, ?_, ?_⟩, ?_⟩
  all_goals
    intro id c
    rw [hNone id]
    nofun

/- So many receivers, each of which answers with its number. -/
structure Made
    (classes : Nat)
    (values : Array Value)
    (heap : Heap) : Prop where
  coherent : heap.Coherent
  size : heap.classes.size = classes
  count : values.size = classes
  answers :
    ∀ number < classes, ∃ receiver,
      values[number]? = some receiver ∧
        Answers heap receiver number

theorem Made.newReceiver
    {classes : Nat}
    {values : Array Value}
    {heap : Heap}
    (hMade : Made classes values heap) :
    Made (classes + 1)
      (values.push (Simulation.newReceiver heap classes).1)
      (Simulation.newReceiver heap classes).2 where
  coherent := by
    rw [newReceiver_eq_run]
    exact (hMade.coherent.run _).1
  size := by
    rw [size_newReceiver, hMade.size]
  count := by
    rw [Array.size_push, hMade.count]
  answers number hNumber := by
    have hSize := hMade.size
    have hCount := hMade.count
    rcases Nat.lt_succ_iff_lt_or_eq.mp hNumber with
      hEarlier | rfl
    · rcases hMade.answers number hEarlier with
        ⟨receiver, hThere, hAnswers⟩
      have hPlace : number ≠ values.size := by omega
      have hClass : number + 1 ≠ heap.classes.size + 1 := by omega
      refine ⟨receiver, ?_, hAnswers.of_class? ?_⟩
      · rw [Array.getElem?_push, if_neg hPlace, hThere]
      · rw [class?_newReceiver, if_neg hClass]
    · refine ⟨_, ?_, newReceiver_answers hSize⟩
      rw [← hCount, Array.getElem?_push_size, hCount]

/- The receivers of a simulation answer with their numbers. -/
theorem made_receivers
    (classes : Nat) :
    Made classes (receivers emptyHeap classes).1
      (receivers emptyHeap classes).2 := by
  induction classes with
  | zero => exact ⟨coherent_emptyHeap, rfl, rfl, nofun⟩
  | succ classes ih =>
      have hNext :
          receivers emptyHeap (classes + 1) =
            ((receivers emptyHeap classes).1.push
                (newReceiver (receivers emptyHeap classes).2
                  classes).1,
              (newReceiver (receivers emptyHeap classes).2
                classes).2) := by
        simp only [receivers, List.range_succ, List.foldl_append,
          List.foldl_cons, List.foldl_nil]
      rw [hNext]
      exact ih.newReceiver

end Simulation

end RegisterVM
