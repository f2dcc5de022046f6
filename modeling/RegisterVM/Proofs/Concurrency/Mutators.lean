import RegisterVM.Proofs.Object.KeptTables
import RegisterVM.Proofs.Object.Versions

/-
  Members that change in steps. A change of members locks its
  class and changes it, takes the next moment of the common clock,
  and then stamps the class with that moment and releases it.
  Changes of different classes interleave, and slot tables are
  asked for in between: building one reads the members of a class
  only while the class is free, but a kept table of the current
  version is used even while its class is locked.

  As long as no class is stamped with a moment that is older than
  the stamp of a descendant, every table of a class that has no
  change going on in its lineage is the built one. A stamp that
  comes after a newer one below it changes no version there, and
  a table that missed the change stays in use.

  Key definitions include:
    * `MemberChange`
    * `Mutators`
    * `Mutators.step`
    * `Mutators.run`
    * `Mutators.InOrder`
    * `Mutators.Sound`

  Key theorems include:
    * `Mutators.run_in_one_go`
    * `Mutators.Sound.step`
    * `Mutators.Sound.run`
    * `Mutators.slotTable_of_inOrder`
    * `Mutators.stale_table_of_late_stamp`
-/

namespace RegisterVM

------------------------------------------------------------
-- Changes Of Members
------------------------------------------------------------

/- A change of the members of a class. -/
inductive MemberChange where
  /- Declare a method, abstract without a body. -/
  | define
      (name : String) (visibility : Visibility)
      (body : Option Callable)
  | defineStatic (name : String) (body : Callable)
  | remove (name : String)
  deriving Repr

namespace MemberChange

/- The class after a change of its members. -/
def apply : MemberChange → Class → Class
  | .define name visibility body, c =>
    c.insertMethod name visibility body
  | .defineStatic name body, c => c.insertStatic name body
  | .remove name, c => c.removeMethod name

/-
  Whether there is anything to do. The lock is released at once if
  the method to be removed is not declared.
-/
def applies : MemberChange → Class → Bool
  | .remove name, c => (c.method? name).isSome
  | _, _ => true

/- A change of members as one step of the heap. -/
def toStep
    (id : ClassId) : MemberChange → HeapStep
  | .define name visibility body =>
    .define id name visibility body
  | .defineStatic name body => .defineStatic id name body
  | .remove name => .remove id name

theorem keepsIdentity
    (change : MemberChange) :
    Class.KeepsIdentity change.apply := by
  cases change with
  | define name visibility body =>
      exact Class.keepsIdentity_insertMethod name visibility body
  | defineStatic name body =>
      exact Class.keepsIdentity_insertStatic name body
  | remove name => exact Class.keepsIdentity_removeMethod name

@[simp]
theorem stamp_apply
    (change : MemberChange)
    (c : Class) :
    (change.apply c).stamp = c.stamp := by
  cases change <;> rfl

@[simp]
theorem table_apply
    (change : MemberChange)
    (c : Class) :
    (change.apply c).table = c.table := by
  cases change <;> rfl

/- A step of the heap that changes members is one such change. -/
theorem step_toStep
    {heap : Heap}
    {id : ClassId}
    {c : Class}
    (hClass : heap.class? id = some c)
    {change : MemberChange}
    (hApplies : change.applies c) :
    heap.step (change.toStep id) =
      heap.modifyMembers id change.apply := by
  cases change with
  | define name visibility body => rfl
  | defineStatic name body => rfl
  | remove name =>
      have hDeclared :
          name ∈ (heap.methods id).map MethodRecord.name := by
        rw [← Heap.isSome_findMethod?, Heap.findMethod?_methods,
          hClass]
        exact hApplies
      rw [toStep, Heap.step,
        Heap.removeMethod_of_declared hDeclared]
      rfl

end MemberChange

------------------------------------------------------------
-- Steps
------------------------------------------------------------

/- How far the change of a class has come, while it is locked. -/
inductive Stage where
  /- The members have changed. -/
  | changed
  /- The moment of the change is taken, and not yet stored. -/
  | timed (moment : Nat)
  deriving Repr, DecidableEq

/- The moment that a change has taken. -/
def Stage.moment? : Stage → Option Nat
  | changed => none
  | timed moment => some moment

/- A heap, and the changes that are going on in it. -/
structure Mutators where
  heap : Heap := {}
  stage : ClassId → Option Stage := fun _ => none

/- What can happen next. -/
inductive MutatorStep where
  | create (name : String) (parent : Option ClassId)
  /- Lock a class and change its members. -/
  | change (id : ClassId) (change : MemberChange)
  /- Take the next moment for the change of a class. -/
  | take (id : ClassId)
  /- Stamp a class with the moment taken, and release it. -/
  | store (id : ClassId)
  /- Ask for the slot table of a class. -/
  | table (id : ClassId)
  deriving Repr

namespace Heap

/- The clock moves on. -/
def tick
    (heap : Heap) : Heap :=
  { heap with epoch := heap.epoch + 1 }

@[simp]
theorem class?_tick
    (heap : Heap)
    (id : ClassId) :
    heap.tick.class? id = heap.class? id :=
  rfl

theorem WellFormed.tick
    {heap : Heap}
    (hHeap : heap.WellFormed) :
    heap.tick.WellFormed where
  lineage := hHeap.lineage
  stamped id c hClass := by
    have hStamp := hHeap.stamped id c hClass
    exact ⟨hStamp.1, Nat.le_succ_of_le hStamp.2⟩
  distinct := hHeap.distinct

end Heap

namespace Mutators

/- How far changes have come, once one has moved on. -/
def moveTo
    (stage : ClassId → Option Stage)
    (id : ClassId)
    (next : Option Stage) : ClassId → Option Stage :=
  fun other => if other = id then next else stage other

/- The state after a step, if nothing is in its way. -/
def step
    (s : Mutators) : MutatorStep → Option Mutators
  | .create name parent =>
    some { s with heap := (s.heap.newClass name parent).2 }
  | .change id change =>
    match s.heap.class? id, s.stage id with
    | some c, none =>
      if change.applies c then
        some
          { heap := s.heap.setClass id (change.apply c)
            stage := moveTo s.stage id (some .changed) }
      else
        none
    | _, _ => none
  | .take id =>
    match s.stage id with
    | some .changed =>
      some
        { heap := s.heap.tick
          stage :=
            moveTo s.stage id (some (.timed (s.heap.epoch + 1))) }
    | _ => none
  | .store id =>
    match s.heap.class? id, s.stage id with
    | some c, some (.timed moment) =>
      some
        { heap := s.heap.setClass id { c with stamp := moment }
          stage := moveTo s.stage id none }
    | _, _ => none
  | .table id =>
    if ∀ reader ∈ s.heap.readsAlong (s.heap.lineage id),
        s.stage reader = none then
      some { s with heap := (s.heap.slotTable id).2 }
    else
      none

/- The state after some steps, if each of them can be taken. -/
def run
    (s : Mutators)
    (steps : List MutatorStep) : Option Mutators :=
  steps.foldlM step s

section Steps

variable {s : Mutators} {id : ClassId} {c : Class}

theorem step_change
    (hClass : s.heap.class? id = some c)
    (hFree : s.stage id = none)
    {change : MemberChange}
    (hApplies : change.applies c) :
    s.step (.change id change) =
      some
        { heap := s.heap.setClass id (change.apply c)
          stage := moveTo s.stage id (some .changed) } := by
  simp only [step, hClass, hFree, if_pos hApplies]

theorem step_take
    (hStage : s.stage id = some .changed) :
    s.step (.take id) =
      some
        { heap := s.heap.tick
          stage :=
            moveTo s.stage id (some (.timed (s.heap.epoch + 1))) } := by
  simp only [step, hStage]

theorem step_store
    (hClass : s.heap.class? id = some c)
    {moment : Nat}
    (hStage : s.stage id = some (.timed moment)) :
    s.step (.store id) =
      some
        { heap := s.heap.setClass id { c with stamp := moment }
          stage := moveTo s.stage id none } := by
  simp only [step, hClass, hStage]

/-
  Three steps in a row come to the change as the heap makes it in
  one go.
-/
theorem run_in_one_go
    (hClass : s.heap.class? id = some c)
    (hFree : s.stage id = none)
    {change : MemberChange}
    (hApplies : change.applies c) :
    s.run [.change id change, .take id, .store id] =
      some { s with heap := s.heap.step (change.toStep id) } := by
  have hChanged :
      (s.heap.setClass id (change.apply c)).tick.class? id =
        some (change.apply c) := by
    rw [Heap.class?_tick, Heap.class?_setClass hClass,
      if_pos rfl]
  have hReleased :
      ∀ first second,
        moveTo (moveTo (moveTo s.stage id first) id second) id
            none =
          s.stage := by
    intro first second
    funext other
    by_cases hSame : other = id
    · simp [moveTo, hSame, hFree]
    · simp [moveTo, hSame]
  rw [run, List.foldlM_cons, step_change hClass hFree hApplies,
    Option.bind_eq_bind, Option.bind_some, List.foldlM_cons,
    step_take (if_pos rfl), Option.bind_eq_bind,
    Option.bind_some, List.foldlM_cons,
    step_store hChanged (if_pos rfl), hReleased,
    MemberChange.step_toStep hClass hApplies,
    Heap.modifyMembers_of_class? hClass]
  rfl

end Steps

end Mutators

------------------------------------------------------------
-- Stamps In Order
------------------------------------------------------------

namespace Mutators

/- A moment newer than the stamps of all descendants of a class. -/
def Newer
    (s : Mutators)
    (id : ClassId)
    (moment : Nat) : Prop :=
  ∀ other ≤ s.heap.classes.size, other ≠ id →
    id ∈ s.heap.lineage other → s.heap.stamp other < moment

instance
    (s : Mutators)
    (id : ClassId)
    (moment : Nat) :
    Decidable (s.Newer id moment) :=
  inferInstanceAs
    (Decidable
      (∀ other ≤ s.heap.classes.size, other ≠ id →
        id ∈ s.heap.lineage other →
          s.heap.stamp other < moment))

/- A step that stores no stamp late. -/
def OnTime
    (s : Mutators) : MutatorStep → Prop
  | .store id =>
    ∀ moment ∈ (s.stage id).bind Stage.moment?, s.Newer id moment
  | _ => True

instance
    (s : Mutators) :
    (step : MutatorStep) → Decidable (s.OnTime step)
  | .store id =>
    inferInstanceAs
      (Decidable
        (∀ moment ∈ (s.stage id).bind Stage.moment?,
          s.Newer id moment))
  | .create .. | .change .. | .take _ | .table _ =>
    inferInstanceAs (Decidable True)

/- Steps of which none stores a stamp late. -/
def InOrder : Mutators → List MutatorStep → Prop
  | _, [] => True
  | s, first :: rest =>
    s.OnTime first ∧ ∀ s' ∈ s.step first, s'.InOrder rest

instance decidableInOrder :
    (s : Mutators) → (steps : List MutatorStep) →
      Decidable (s.InOrder steps)
  | _, [] => inferInstanceAs (Decidable True)
  | s, first :: rest =>
    have : DecidablePred fun s' : Mutators => s'.InOrder rest :=
      fun s' => decidableInOrder s' rest
    inferInstanceAs
      (Decidable
        (s.OnTime first ∧ ∀ s' ∈ s.step first, s'.InOrder rest))

/- A change of the class is going on. -/
def Busy
    (s : Mutators)
    (id : ClassId) : Prop :=
  s.stage id ≠ none

theorem busy_of_stage
    {s : Mutators}
    {id : ClassId}
    {held : Stage}
    (hStage : s.stage id = some held) :
    s.Busy id := by
  rw [Busy, hStage]
  exact Option.some_ne_none held

/- A stage that no class has just come to was there before. -/
theorem stage_of_moveTo
    {stage : ClassId → Option Stage}
    {id other : ClassId}
    {next : Option Stage}
    {held : Stage}
    (hStage : moveTo stage id next other = some held)
    (hNext : next ≠ some held) :
    other ≠ id ∧ stage other = some held := by
  by_cases hSame : other = id
  · rw [moveTo, if_pos hSame] at hStage
    exact absurd hStage hNext
  · rw [moveTo, if_neg hSame] at hStage
    exact ⟨hSame, hStage⟩

/-
  Kept tables serve their classes. Only classes that are there are
  busy. A moment that is taken is newer than the stamp of its own
  class; and if a newer one has been stored above the class in the
  meantime, then the class has no current table, since it is locked.
-/
structure Sound
    (s : Mutators) : Prop where
  current : s.heap.CurrentUnless s.Busy
  there :
    ∀ id, s.Busy id → ∃ c, s.heap.class? id = some c
  timed :
    ∀ id moment, s.stage id = some (.timed moment) →
      s.heap.stamp id < moment ∧ moment ≤ s.heap.epoch
  waits :
    ∀ id moment, s.stage id = some (.timed moment) →
      moment ≤ s.heap.version id → ¬ s.heap.Current id

theorem sound_empty :
    Sound {} where
  current :=
    { wellFormed := Heap.wellFormed_empty
      kept := by
        intro id table hTable
        cases id <;> simp [Heap.table?, Heap.class?_succ] at hTable
      above := by
        rintro id ⟨table, hTable, _⟩
        cases id <;> simp [Heap.table?, Heap.class?_succ] at hTable }
  there id hBusy := absurd rfl hBusy
  timed id moment hStage := by
    cases hStage
  waits id moment hStage := by
    cases hStage

namespace Sound

variable {s : Mutators} {id : ClassId} {c : Class}

theorem create
    (hSound : s.Sound)
    (name : String)
    (parent : Option ClassId) :
    Sound { s with heap := (s.heap.newClass name parent).2 } := by
  have hHeap := hSound.current.wellFormed
  refine ⟨hSound.current.newClass name parent, ?_, ?_, ?_⟩
  · intro id hBusy
    rcases hSound.there id hBusy with ⟨c, hClass⟩
    exact ⟨c, Heap.class?_newClass_of_some name parent hClass⟩
  · intro id moment hStage
    rcases hSound.there id (busy_of_stage hStage) with
      ⟨c, hClass⟩
    have hTimed := hSound.timed id moment hStage
    have hStamp :
        (s.heap.newClass name parent).2.stamp id =
          s.heap.stamp id := by
      unfold Heap.stamp
      rw [Heap.class?_newClass_of_some name parent hClass, hClass]
    rw [hStamp]
    exact ⟨hTimed.1, Nat.le_succ_of_le hTimed.2⟩
  · intro id moment hStage
    rcases hSound.there id (busy_of_stage hStage) with
      ⟨c, hClass⟩
    have hSame := hHeap.sameLayout_newClass name parent hClass
    rw [Heap.current_congr hSame.version
      (s.heap.table?_newClass name parent id), hSame.version]
    exact hSound.waits id moment hStage

/- Replacing a class leaves the busy classes where they are. -/
theorem exists_setClass
    (hSound : s.Sound)
    (hClass : s.heap.class? id = some c)
    (c' : Class)
    {next : Option Stage}
    {other : ClassId}
    (hBusy : moveTo s.stage id next other ≠ none) :
    ∃ d, (s.heap.setClass id c').class? other = some d := by
  rw [Heap.class?_setClass hClass]
  by_cases hSame : other = id
  · exact ⟨c', if_pos hSame⟩
  · rw [moveTo, if_neg hSame] at hBusy
    rw [if_neg hSame]
    exact hSound.there other hBusy

theorem change
    (hSound : s.Sound)
    (hClass : s.heap.class? id = some c)
    (change : MemberChange) :
    Sound
      { heap := s.heap.setClass id (change.apply c)
        stage := moveTo s.stage id (some .changed) } := by
  have hKeeps := change.keepsIdentity
  have hVersion :=
    Heap.version_setClass_of_stamp_eq hClass (change.apply c)
      (hKeeps.lineage c) (change.stamp_apply c)
  have hTables :=
    Heap.table?_setClass hClass (change.apply c)
      (change.table_apply c)
  refine ⟨?_, fun _ => hSound.exists_setClass hClass _, ?_, ?_⟩
  · apply hSound.current.change hClass hKeeps
      (change.stamp_apply c) (change.table_apply c)
    · exact busy_of_stage (if_pos rfl)
    · intro other hBusy
      by_cases hSame : other = id
      · exact busy_of_stage (if_pos hSame)
      · simpa [Busy, moveTo, hSame] using hBusy
  · intro other moment hStage
    rcases stage_of_moveTo hStage (by simp) with ⟨hOther, hStage⟩
    rw [Heap.stamp_setClass hClass, if_neg hOther]
    exact hSound.timed other moment hStage
  · intro other moment hStage
    rcases stage_of_moveTo hStage (by simp) with ⟨hOther, hStage⟩
    rw [Heap.current_congr (hVersion other) (hTables other),
      hVersion]
    exact hSound.waits other moment hStage

theorem take
    (hSound : s.Sound)
    (hStage : s.stage id = some .changed) :
    Sound
      { heap := s.heap.tick
        stage :=
          moveTo s.stage id (some (.timed (s.heap.epoch + 1))) } := by
  have hHeap := hSound.current.wellFormed
  have hBusy :
      ∀ other,
        moveTo s.stage id (some (.timed (s.heap.epoch + 1))) other
            ≠ none ↔
          s.Busy other := by
    intro other
    by_cases hSame : other = id
    · simp [Busy, moveTo, hSame, hStage]
    · simp [Busy, moveTo, hSame]
  refine ⟨?_, ?_, ?_, ?_⟩
  · apply hSound.current.of_same hHeap.tick
    · exact fun _ => rfl
    · exact fun _ _ _ => .of_class? fun _ _ => rfl
    · exact fun other => (hBusy other).mpr
  · intro other hOther
    exact hSound.there other ((hBusy other).mp hOther)
  · intro other moment hOther
    by_cases hSame : other = id
    · simp only [moveTo, if_pos hSame] at hOther
      cases hOther
      exact ⟨Nat.lt_succ_of_le (hHeap.stamp_le_epoch other),
        Nat.le_refl _⟩
    · simp only [moveTo, if_neg hSame] at hOther
      have hTimed := hSound.timed other moment hOther
      exact ⟨hTimed.1, Nat.le_succ_of_le hTimed.2⟩
  · intro other moment hOther hSeen
    by_cases hSame : other = id
    · simp only [moveTo, if_pos hSame] at hOther
      cases hOther
      have hPast : s.heap.version other ≤ s.heap.epoch :=
        hHeap.version_le_epoch other
      exact absurd hSeen (Nat.not_le.mpr (Nat.lt_succ_of_le hPast))
    · simp only [moveTo, if_neg hSame] at hOther
      exact hSound.waits other moment hOther hSeen

theorem store
    (hSound : s.Sound)
    (hClass : s.heap.class? id = some c)
    {moment : Nat}
    (hStage : s.stage id = some (.timed moment))
    (hNewer : s.Newer id moment) :
    Sound
      { heap := s.heap.setClass id { c with stamp := moment }
        stage := moveTo s.stage id none } := by
  have hHeap := hSound.current.wellFormed
  have hTimed := hSound.timed id moment hStage
  have hOwn : c.stamp < moment := by
    simpa [Heap.stamp, hClass] using hTimed.1
  have hBelow :
      ∀ other, other ≠ id → id ∈ s.heap.lineage other →
        s.heap.stamp other < moment := by
    intro other hOther hMem
    apply hNewer other _ hOther hMem
    cases hThere : s.heap.class? other with
    | none =>
        rw [Heap.lineage_of_class?_none hThere] at hMem
        cases hMem
    | some d => exact Heap.le_size_of_class? hThere
  have hWaits := hSound.waits id moment hStage
  refine ⟨?_, fun _ => hSound.exists_setClass hClass _, ?_, ?_⟩
  · apply hSound.current.stamp hClass hOwn hTimed.2 hBelow hWaits
    intro other hOther hBusy
    simpa [Busy, moveTo, hOther] using hBusy
  · intro other time hTime
    rcases stage_of_moveTo hTime (by simp) with ⟨hOther, hTime⟩
    rw [Heap.stamp_setClass hClass, if_neg hOther]
    exact hSound.timed other time hTime
  · intro other time hTime hSeen
    rcases stage_of_moveTo hTime (by simp) with ⟨hOther, hTime⟩
    by_cases hMem : id ∈ s.heap.lineage other
    · exact hSound.current.not_current_of_stamp hClass hOwn hBelow
        hWaits hMem
    · have hSame :=
        hHeap.sameLayout_setClass hClass { c with stamp := moment }
          hMem
      have hTable :=
        Heap.table?_setClass hClass { c with stamp := moment } rfl
          other
      rw [hSame.version] at hSeen
      rw [Heap.current_congr hSame.version hTable]
      exact hSound.waits other time hTime hSeen

/- A class that is locked is not read, and keeps its table. -/
theorem table
    (hSound : s.Sound)
    (hFree :
      ∀ reader ∈ s.heap.readsAlong (s.heap.lineage id),
        s.stage reader = none) :
    Sound { s with heap := (s.heap.slotTable id).2 } := by
  have hBare := s.heap.bare_slotTable id
  have hEpoch := congrArg Heap.epoch hBare
  rw [Heap.epoch_bare, Heap.epoch_bare] at hEpoch
  have hClass :
      ∀ other, s.Busy other →
        (s.heap.slotTable id).2.class? other =
          s.heap.class? other := by
    intro other hBusy
    apply Heap.class?_slotTable_of_notMem
    intro hMem
    exact hBusy (hFree other hMem)
  refine ⟨(hSound.current.slotTable id).2.1, ?_, ?_, ?_⟩
  · intro other hBusy
    rw [hClass other hBusy]
    exact hSound.there other hBusy
  · intro other moment hStage
    have hSame := hClass other (busy_of_stage hStage)
    unfold Heap.stamp
    rw [hSame, hEpoch]
    exact hSound.timed other moment hStage
  · intro other moment hStage
    have hSame := hClass other (busy_of_stage hStage)
    have hVersion :=
      (Heap.SameLayout.of_bare_eq hBare other).version
    have hTable :
        (s.heap.slotTable id).2.table? other =
          s.heap.table? other := by
      unfold Heap.table?
      rw [hSame]
    rw [Heap.current_congr hVersion hTable, hVersion]
    exact hSound.waits other moment hStage

/- Every step on time keeps a state sound. -/
theorem step
    (hSound : s.Sound)
    {step : MutatorStep}
    (hOnTime : s.OnTime step)
    {s' : Mutators}
    (hStep : s.step step = some s') :
    s'.Sound := by
  cases step with
  | create name parent =>
      cases hStep
      exact hSound.create name parent
  | change id change =>
      simp only [Mutators.step] at hStep
      split at hStep
      next c hClass hFree =>
        split at hStep
        next =>
          cases hStep
          exact hSound.change hClass change
        next => cases hStep
      next => cases hStep
  | take id =>
      simp only [Mutators.step] at hStep
      split at hStep
      next hStage =>
        cases hStep
        exact hSound.take hStage
      next => cases hStep
  | store id =>
      simp only [Mutators.step] at hStep
      split at hStep
      next c moment hClass hStage =>
        cases hStep
        apply hSound.store hClass hStage
        apply hOnTime moment
        rw [hStage]
        rfl
      next => cases hStep
  | table id =>
      simp only [Mutators.step] at hStep
      split at hStep
      next hFree =>
        cases hStep
        exact hSound.table hFree
      next => cases hStep

/- Every run with its stamps in order keeps a state sound. -/
theorem run
    (hSound : s.Sound)
    {steps : List MutatorStep}
    (hOrder : s.InOrder steps)
    {s' : Mutators}
    (hRun : s.run steps = some s') :
    s'.Sound := by
  induction steps generalizing s with
  | nil =>
      cases hRun
      exact hSound
  | cons first rest ih =>
      rw [Mutators.run, List.foldlM_cons] at hRun
      rcases Option.bind_eq_some_iff.mp hRun with
        ⟨next, hFirst, hRest⟩
      exact ih (hSound.step hOrder.1 hFirst)
        (hOrder.2 next hFirst) hRest

end Sound

------------------------------------------------------------
-- Tables At Rest
------------------------------------------------------------

/-
  As long as no class is stamped after a descendant that has a
  newer stamp, a class that has no change going on in its lineage
  is given its table without waiting, and the table is the one
  that would be built from the members that the classes of the
  lineage have now.
-/
theorem slotTable_of_inOrder
    (steps : List MutatorStep)
    (hOrder : InOrder {} steps)
    (s : Mutators)
    (hRun : run {} steps = some s)
    (id : ClassId)
    (hRest :
      ∀ ancestor ∈ s.heap.lineage id, s.stage ancestor = none) :
    (s.step (.table id)).isSome ∧
      (s.heap.slotTable id).1 = s.heap.builtTable id := by
  have hSound := sound_empty.run hOrder hRun
  constructor
  · have hFree :
        ∀ reader ∈ s.heap.readsAlong (s.heap.lineage id),
          s.stage reader = none :=
      fun reader hMem =>
        hRest reader (Heap.readsAlong_subset _ _ hMem)
    simp only [step, if_pos hFree, Option.isSome_some]
  · apply (hSound.current.slotTable id).1.built
    intro ancestor hMem hBusy
    exact hBusy (hRest ancestor hMem)

/-
  Parent and child change at the same time, and the table of the
  child is used while both are locked. The child takes its moment
  first and stores it last, under the newer stamp of the parent.
-/
theorem slotTable_of_inOrder_of_overlap :
    let steps : List MutatorStep :=
      [.create "Parent" none, .create "Child" (some 1), .table 2,
        .change 2 (.define "leave" .everyone none), .take 2,
        .change 1 (.define "greet" .everyone none), .table 2,
        .take 1, .store 1, .table 1, .store 2]
    InOrder {} steps ∧
      ∃ s, run {} steps = some s ∧
        (∀ ancestor ∈ s.heap.lineage 2,
          s.stage ancestor = none) ∧
        (s.step (.table 2)).isSome ∧
        (s.heap.slotTable 2).1 = s.heap.builtTable 2 := by
  intro steps
  have hOrder : InOrder {} steps := by decide +kernel
  have hRest :
      ∀ s ∈ run {} steps, ∀ ancestor ∈ s.heap.lineage 2,
        s.stage ancestor = none := by
    decide +kernel
  have hRun : (run {} steps).isSome := by decide +kernel
  rcases Option.isSome_iff_exists.mp hRun with ⟨s, hRun⟩
  exact ⟨hOrder, s, hRun, hRest s hRun,
    slotTable_of_inOrder steps hOrder s hRun 2 (hRest s hRun)⟩

/- The parent stores its stamp after the child a newer one. -/
def lateStamp : List MutatorStep :=
  [.create "Parent" none, .create "Child" (some 1), .table 1,
    .change 1 (.define "greet" .everyone none), .take 1,
    .change 2 (.define "leave" .everyone none), .take 2,
    .store 2, .table 2, .store 1]

/-
  A stamp that comes late goes unseen. The table of the child is
  built from the one that is kept for its parent, while the parent
  has changed and is not stamped. The stamp that follows is older
  than that of the child, so the version of the child stays, and
  so does the table, which lacks the method of the parent.
-/
theorem stale_table_of_late_stamp :
    ∃ s, run {} lateStamp = some s ∧
      (∀ id, s.stage id = none) ∧
      (s.heap.slotTable 2).1.slots.map MethodRecord.name =
        #["leave"] ∧
      (s.heap.slotsOf (s.heap.lineage 2)).slots.map
          MethodRecord.name =
        #["greet", "leave"] := by
  have hStages :
      (run {} lateStamp).map stage = some fun _ => none := by
    apply congrArg some
    funext id
    rcases id with _ | _ | _ | id <;> rfl
  have hSlots :
      (run {} lateStamp).map
          (fun s =>
            ((s.heap.slotTable 2).1.slots.map MethodRecord.name,
              (s.heap.slotsOf (s.heap.lineage 2)).slots.map
                MethodRecord.name)) =
        some (#["leave"], #["greet", "leave"]) := by
    decide +kernel
  rcases Option.map_eq_some_iff.mp hStages with
    ⟨s, hRun, hStage⟩
  rw [hRun, Option.map_some, Option.some.injEq,
    Prod.mk.injEq] at hSlots
  exact ⟨s, hRun, fun id => congrFun hStage id, hSlots⟩

end Mutators

end RegisterVM
