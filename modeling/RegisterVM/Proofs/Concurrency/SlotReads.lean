import RegisterVM.Proofs.Dispatch.Verdicts
import RegisterVM.Proofs.Object.SlotNames

/-
  Slots that are read late. A call by name finds a method and its
  slot at one moment and reads the slot at a later one; other
  threads, or the policy that is asked in between, may change
  classes meanwhile. The read is by number and does not look at the
  name, so the call runs what it was asked for as long as the
  changes keep the slots of the class. Where a change moves slots,
  it may run the body of another method.

  Key definitions include:
    * `invokeInstanceAmid`

  Key theorems include:
    * `invokeInstanceAmid_nil`
    * `slot_read_by_name`
    * `other_method_of_moved_slot`
-/

namespace RegisterVM

------------------------------------------------------------
-- Calls Amid Changes
------------------------------------------------------------

/-
  Call a method of an instance, while some steps change the heap
  between the lookup by name and the read of the slot. The check of
  access reads lineages only, and no step changes these, so it does
  not matter on which side of the check the steps are taken.
-/
def invokeInstanceAmid
    (between : List HeapStep)
    (run : Runner)
    (i : Instance)
    (name : String)
    (args : List Value) : Action Value := do
  let some resolved ← Action.resolve i.cls name
    | Action.refuse (.notFound ((← Action.heap).className i.cls) name)
  let record := resolved.record
  let some body := record.body
    | Action.refuse
        (.abstractMember ((← Action.heap).className i.cls) name)
  Action.checkAccess record.visibility record.declaring name i.cls
  Action.modifyWorld fun world =>
    { world with heap := world.heap.run between }
  match resolved.slot with
  | none => run body (.inst i) args
  | some slot =>
    let table ← Action.slotTable i.cls
    let slotted := (table.get? slot).bind MethodRecord.body
    run (slotted.getD body) (.inst i) args

/- With no step in between, this is the call by name. -/
theorem invokeInstanceAmid_nil :
    invokeInstanceAmid [] = invokeInstance := by
  rfl

namespace Heap

/- Kept tables have no part in what steps do. -/
theorem bare_run_congr
    {heap heap' : Heap}
    (hBare : heap.bare = heap'.bare)
    (steps : List HeapStep) :
    (heap.run steps).bare = (heap'.run steps).bare := by
  induction steps generalizing heap heap' with
  | nil => exact hBare
  | cons first rest ih =>
      apply ih
      rw [heap.bare_step, heap'.bare_step, hBare]

/-
  A lookup by name keeps tables for later. After some steps, every
  class has the table that it would have without the lookup.
-/
theorem Coherent.slotTable_run_resolve
    {heap : Heap}
    (hHeap : heap.Coherent)
    (cls : ClassId)
    (name : String)
    (steps : List HeapStep) :
    let later := heap.run steps
    let later' := (heap.resolve cls name).2.run steps
    (later'.slotTable cls).1 = (later.slotTable cls).1 ∧
      (later'.slotTable cls).2.bare = later.bare := by
  intro later later'
  have hBare : later'.bare = later.bare :=
    bare_run_congr (heap.bare_resolve cls name) steps
  have hLater : later.Coherent := (hHeap.run steps).1
  have hLater' : later'.Coherent :=
    ((hHeap.resolve cls name).2.run steps).1
  constructor
  · rw [(hLater.slotTable cls).1, (hLater'.slotTable cls).1]
    exact (SameLayout.of_bare_eq hBare cls).builtTable
  · rw [later'.bare_slotTable, hBare]

end Heap

namespace Machine

/- The machine after a lookup by name. -/
def afterResolve
    (m : Machine)
    (cls : ClassId)
    (name : String) : Machine :=
  (m.withContext m.context.countResolution).withHeap
    (m.world.heap.resolve cls name).2

theorem permits_afterResolve
    (m : Machine)
    (cls : ClassId)
    (name : String)
    (query : Query) :
    (m.afterResolve cls name).permits query = m.permits query := by
  have hLineage :
      (m.world.heap.resolve cls name).2.lineage =
        m.world.heap.lineage := by
    funext id
    exact (Heap.SameLayout.of_bare_eq
      (m.world.heap.bare_resolve cls name) id).lineage
  unfold permits
  show
    m.context.policy.permits query.visibility query.declaring
        (query.caller.map
          (m.world.heap.resolve cls name).2.lineage)
        query.member = _
  rw [hLineage]

end Machine

------------------------------------------------------------
-- Slots Read By Number
------------------------------------------------------------

section Amid

variable {m : Machine} {i : Instance} {name : String}
variable {record : MethodRecord} {slot : Nat} {body : Callable}

/-
  A call that is permitted runs the body in the slot as it is after
  the steps, or the body that was found if there is none.
-/
theorem run_invokeInstanceAmid
    (hHeap : m.world.heap.Coherent)
    (hResolves :
      (m.world.heap.resolve i.cls name).1 =
        some ⟨record, some slot⟩)
    (hBody : record.body = some body)
    (hPermits :
      m.permits
        ⟨record.visibility, record.declaring, m.context.caller,
          name⟩)
    {between : List HeapStep}
    {read : MethodRecord}
    (hRead :
      ((m.world.heap.run between).slotTable i.cls).1.get? slot =
        some read)
    (args : List Value) :
    ∃ m' : Machine,
      m'.world.heap.bare = (m.world.heap.run between).bare ∧
        ∀ run,
          (invokeInstanceAmid between run i name args).run m =
            (run (read.body.getD body) (.inst i) args).run m' := by
  have hTable := hHeap.slotTable_run_resolve i.cls name between
  rw [← hTable.1] at hRead
  let query : Query :=
    ⟨record.visibility, record.declaring, m.context.caller, name⟩
  let asked := (m.afterResolve i.cls name).asking (some query)
  let kept := (m.world.heap.resolve i.cls name).2.run between
  refine ⟨asked.withHeap (kept.slotTable i.cls).2, hTable.2, ?_⟩
  intro run
  have hFound :
      (Action.resolve i.cls name).run m =
        (.ok (some ⟨record, some slot⟩),
          m.afterResolve i.cls name) := by
    rw [← hResolves]
    rfl
  have hAllowed :
      (m.afterResolve i.cls name).permits query = true := by
    rw [m.permits_afterResolve]
    exact hPermits
  have hCheck :
      (Action.checkAccess record.visibility record.declaring name
          i.cls).run (m.afterResolve i.cls name) =
        (.ok (), asked) := by
    refine (Machine.run_checkAccess _ _ _ _ _).trans ?_
    exact Prod.ext (if_pos hAllowed) rfl
  unfold invokeInstanceAmid
  rw [Effect.run_bind, hFound]
  simp only [hBody]
  rw [Effect.run_bind, hCheck]
  show
    (run
      (((((kept.slotTable i.cls).1.get? slot).bind
        MethodRecord.body).getD body)) (.inst i) args).run _ = _
  rw [hRead]
  rfl

end Amid

/-
  The method asked for runs as long as the steps in between keep
  the slots of the class of the receiver. The slot that was found
  then holds, when it is read, a method of the name asked for: the
  nearest one that is not private. A permitted call runs its body,
  and if it has become abstract, the body that was found.
-/
theorem slot_read_by_name
    (before between : List HeapStep)
    (m : Machine)
    (i : Instance)
    (name : String)
    (resolved : Heap.Resolved)
    (slot : Nat)
    (body : Callable)
    (hHeap : m.world.heap = Heap.run {} before)
    (hResolves :
      (m.world.heap.resolve i.cls name).1 = some resolved)
    (hSlot : resolved.slot = some slot)
    (hBody : resolved.record.body = some body)
    (hKeeps : m.world.heap.KeepsSlots i.cls between) :
    let later := m.world.heap.run between
    ∃ record : MethodRecord,
      (later.slotTable i.cls).1.get? slot = some record ∧
        record.name = name ∧
        later.nearestOpen? (later.lineage i.cls) name =
          some record ∧
        (m.permits
            ⟨resolved.record.visibility,
              resolved.record.declaring, m.context.caller,
              name⟩ →
          ∀ args, ∃ m' : Machine,
            m'.world.heap.bare = later.bare ∧
              ∀ run,
                (invokeInstanceAmid between run i name args).run
                    m =
                  (run (record.body.getD body) (.inst i)
                    args).run m') := by
  intro later
  have hCoherent : m.world.heap.Coherent := by
    rw [hHeap]
    exact (Heap.coherent_empty.run before).1
  have hLater : later.Coherent := (hCoherent.run between).1
  have hFound := hResolves
  rw [(hCoherent.resolve i.cls name).1] at hFound
  rcases Option.map_eq_some_iff.mp hFound with
    ⟨found, hNearest, rfl⟩
  have hOpen : found.visibility ≠ .owner := by
    intro hPrivate
    simp [hPrivate] at hSlot
  have hPlace :
      (m.world.heap.builtTable i.cls).slotOf? name =
        some slot := by
    simpa [hOpen] using hSlot
  have hKept := hCoherent.slotOf?_run hKeeps hPlace
  have hHeld := SlotTable.get?_of_slotOf? hKept
  rcases (later.indexes_builtTable i.cls).holds name slot hKept
    with ⟨record, hRecord, hName, _⟩
  have hRead :
      (later.slotTable i.cls).1.get? slot = some record := by
    rw [(hLater.slotTable i.cls).1, hRecord]
  refine ⟨record, hRead, hName, ?_, ?_⟩
  · rw [← Heap.held?_builtTable hLater.wellFormed, ← hRecord]
    exact hHeld.symm
  · intro hPermits args
    have hFirst :
        (m.world.heap.resolve i.cls name).1 =
          some ⟨found, some slot⟩ := by
      rw [hResolves, ← hSlot]
    exact run_invokeInstanceAmid hCoherent hFirst hBody hPermits
      hRead args

/-
  A child whose inherited method is replaced and that gains methods
  of its own, one of them private, while a call is under way.
-/
theorem slot_read_by_name_of_growth :
    let leave : Callable := ⟨1, "leave", .const (.int 1)⟩
    let m : Machine :=
      { world :=
          { heap :=
              Heap.run {}
                [.newClass "Parent" none,
                  .newClass "Child" (some 1),
                  .define 1 "greet" .everyone none,
                  .define 2 "leave" .everyone (some leave)] }
        context := {} }
    let between : List HeapStep :=
      [.define 1 "greet" .everyone (some leave),
        .define 2 "stay" .everyone none,
        .define 1 "plan" .owner none]
    ∃ record : MethodRecord,
      ((m.world.heap.run between).slotTable 2).1.get? 1 =
          some record ∧
        record.name = "leave" ∧
        ∃ m' : Machine, ∀ run,
          (invokeInstanceAmid between run ⟨0, 2⟩ "leave" []).run
              m =
            (run (record.body.getD leave) (.inst ⟨0, 2⟩) []).run
              m' := by
  intro leave m between
  have hResolves :
      (m.world.heap.resolve 2 "leave").1 =
        some ⟨⟨"leave", .everyone, 2, some leave⟩, some 1⟩ := by
    decide +kernel
  have hKeeps : m.world.heap.KeepsSlots 2 between := by
    decide +kernel
  rcases slot_read_by_name _ between m ⟨0, 2⟩ "leave" _ 1 leave
      rfl hResolves rfl rfl hKeeps with
    ⟨record, hRead, hName, _, hRuns⟩
  rcases hRuns rfl [] with ⟨m', _, hRuns⟩
  exact ⟨record, hRead, hName, m', hRuns⟩

/-
  Removing a method that stands before the one asked for, and
  declaring another one, puts the other one into its slot: the call
  of the one runs the body of the other.
-/
theorem other_method_of_moved_slot :
    let greet : Callable := ⟨0, "greet", .const (.int 0)⟩
    let leave : Callable := ⟨1, "leave", .const (.int 1)⟩
    let stay : Callable := ⟨2, "stay", .const (.int 2)⟩
    let m : Machine :=
      { world :=
          { heap :=
              Heap.run {}
                [.newClass "Class" none,
                  .define 1 "greet" .everyone (some greet),
                  .define 1 "leave" .everyone (some leave)] }
        context := {} }
    let between : List HeapStep :=
      [.remove 1 "greet", .define 1 "stay" .everyone (some stay)]
    (m.world.heap.resolve 1 "leave").1 =
        some ⟨⟨"leave", .everyone, 1, some leave⟩, some 1⟩ ∧
      ((m.world.heap.run between).slotTable 1).1.get? 1 =
        some ⟨"stay", .everyone, 1, some stay⟩ ∧
      "stay" ≠ "leave" ∧
      ∃ m' : Machine, ∀ run,
        (invokeInstanceAmid between run ⟨0, 1⟩ "leave" []).run m =
          (run stay (.inst ⟨0, 1⟩) []).run m' := by
  intro greet leave stay m between
  let i : Instance := ⟨0, 1⟩
  have hResolves :
      (m.world.heap.resolve i.cls "leave").1 =
        some ⟨⟨"leave", .everyone, 1, some leave⟩, some 1⟩ := by
    decide +kernel
  have hMoved :
      ((m.world.heap.run between).slotTable 1).1.get? 1 =
        some ⟨"stay", .everyone, 1, some stay⟩ := by
    decide +kernel
  refine ⟨hResolves, hMoved, by decide, ?_⟩
  rcases run_invokeInstanceAmid (Heap.coherent_empty.run _).1
      hResolves rfl rfl hMoved [] with
    ⟨m', _, hRuns⟩
  exact ⟨m', hRuns⟩

end RegisterVM
