import RegisterVM.Proofs.Object.SlotTables

/-
  Layout versions over whole runs of a heap. A run takes classes
  and members through any sequence of changes, with tables built
  and members looked up in between. Versions detect change: a
  change of members gives one fresh version to the class and its
  descendants and no other class a new one, and a class that has
  the same version at two moments is the same class to every
  lookup.

  Key definitions include:
    * `HeapStep`
    * `Heap.step`
    * `Heap.run`
    * `HeapStep.Mutates`

  Key theorems include:
    * `Heap.Coherent.step`
    * `Heap.Coherent.run`
    * `Heap.bare_step`
    * `Heap.version_detects_changes`
-/

namespace RegisterVM

------------------------------------------------------------
-- Runs
------------------------------------------------------------

/- What can happen to a heap. -/
inductive HeapStep where
  | newClass (name : String) (parent : Option ClassId)
  /- An instance or a function takes the next identity. -/
  | newObject
  /- Declare a method, abstract without a body. -/
  | define
      (cls : ClassId) (name : String) (visibility : Visibility)
      (body : Option Callable)
  | defineStatic (cls : ClassId) (name : String) (body : Callable)
  | remove (cls : ClassId) (name : String)
  /- Ask for the slot table of a class. -/
  | buildTable (cls : ClassId)
  /- Ask for a method by name. -/
  | lookUp (cls : ClassId) (name : String)
  deriving Repr

namespace Heap

/- The heap after a step. -/
def step
    (heap : Heap) : HeapStep → Heap
  | .newClass name parent => (heap.newClass name parent).2
  | .newObject => { heap with objects := heap.objects + 1 }
  | .define cls name visibility body =>
    heap.defineMethod cls name visibility body
  | .defineStatic cls name body => heap.defineStatic cls name body
  | .remove cls name => (heap.removeMethod cls name).2
  | .buildTable cls => (heap.slotTable cls).2
  | .lookUp cls name => (heap.resolve cls name).2

/- The heap after some steps. -/
def run
    (heap : Heap)
    (steps : List HeapStep) : Heap :=
  steps.foldl step heap

/- A name is declared exactly when it is found. -/
theorem isSome_findMethod?
    (methods : List MethodRecord)
    (name : String) :
    (findMethod? methods name).isSome ↔
      name ∈ methods.map MethodRecord.name := by
  simp [findMethod?, List.find?_isSome]

/- Removing a name that is not declared changes nothing. -/
theorem removeMethod_of_absent
    {heap : Heap}
    {cls : ClassId}
    {name : String}
    (hAbsent : name ∉ (heap.methods cls).map MethodRecord.name) :
    heap.removeMethod cls name = (false, heap) := by
  have hNone : findMethod? (heap.methods cls) name = none := by
    rw [← isSome_findMethod?] at hAbsent
    simpa using hAbsent
  rw [findMethod?_methods] at hNone
  rw [removeMethod, hNone]

/- Removing a declared name is a change of members. -/
theorem removeMethod_of_declared
    {heap : Heap}
    {cls : ClassId}
    {name : String}
    (hDeclared : name ∈ (heap.methods cls).map MethodRecord.name) :
    heap.removeMethod cls name =
      (true,
        heap.modifyMembers cls fun c => c.removeMethod name) := by
  rw [← isSome_findMethod?, findMethod?_methods] at hDeclared
  rcases Option.isSome_iff_exists.mp hDeclared with
    ⟨record, hFound⟩
  rw [removeMethod, hFound]

/- Kept tables have no part in removing a method. -/
theorem bare_removeMethod
    (heap : Heap)
    (cls : ClassId)
    (name : String) :
    (heap.removeMethod cls name).1 =
        (heap.bare.removeMethod cls name).1 ∧
      (heap.removeMethod cls name).2.bare =
        (heap.bare.removeMethod cls name).2.bare := by
  by_cases hDeclared :
      name ∈ (heap.methods cls).map MethodRecord.name
  · have hBare :
        name ∈ (heap.bare.methods cls).map MethodRecord.name := by
      rw [methods_bare]
      exact hDeclared
    rw [removeMethod_of_declared hDeclared,
      removeMethod_of_declared hBare]
    exact ⟨rfl, heap.bare_modifyMembers cls fun _ => rfl⟩
  · have hBare :
        name ∉ (heap.bare.methods cls).map MethodRecord.name := by
      rw [methods_bare]
      exact hDeclared
    rw [removeMethod_of_absent hDeclared,
      removeMethod_of_absent hBare]
    exact ⟨rfl, heap.bare_bare.symm⟩

/- Kept tables have no part in what a step does. -/
theorem bare_step
    (heap : Heap)
    (step : HeapStep) :
    (heap.step step).bare = (heap.bare.step step).bare := by
  cases step with
  | newClass name parent =>
      exact heap.bare_newClass name parent
  | newObject =>
      exact congrArg
        (fun bare : Heap =>
          { bare with objects := heap.objects + 1 })
        heap.bare_bare.symm
  | define cls name visibility body =>
      exact heap.bare_modifyMembers cls fun _ => rfl
  | defineStatic cls name body =>
      exact heap.bare_modifyMembers cls fun _ => rfl
  | remove cls name => exact (heap.bare_removeMethod cls name).2
  | buildTable cls =>
      rw [Heap.step, Heap.step, bare_slotTable, bare_slotTable,
        bare_bare]
  | lookUp cls name =>
      rw [Heap.step, Heap.step, bare_resolve, bare_resolve,
        bare_bare]

namespace Coherent

variable {heap : Heap}

/- Every step keeps a heap coherent and is an evolution. -/
theorem step
    (hHeap : heap.Coherent)
    (step : HeapStep) :
    (heap.step step).Coherent ∧
      heap.Evolves (heap.step step) := by
  have hWellFormed := hHeap.wellFormed
  cases step with
  | newClass name parent =>
      exact ⟨hHeap.newClass name parent,
        hWellFormed.evolves_newClass name parent⟩
  | newObject =>
      have hEvolves : heap.Evolves (heap.step .newObject) :=
        ⟨Nat.le_refl _, fun _ _ => ⟨rfl, fun _ _ => rfl⟩⟩
      refine ⟨hHeap.of_evolves ?_ hEvolves ?_, hEvolves⟩
      · exact ⟨hWellFormed.lineage, hWellFormed.stamped,
          hWellFormed.distinct⟩
      · exact fun _ c' _ hClass hTable => ⟨c', hClass, hTable⟩
  | define cls name visibility body =>
      have hChange :=
        Class.keepsIdentity_insertMethod name visibility body
      exact ⟨hHeap.modifyMembers cls hChange fun _ => rfl,
        hWellFormed.evolves_modifyMembers cls hChange⟩
  | defineStatic cls name body =>
      have hChange := Class.keepsIdentity_insertStatic name body
      exact ⟨hHeap.modifyMembers cls hChange fun _ => rfl,
        hWellFormed.evolves_modifyMembers cls hChange⟩
  | remove cls name =>
      by_cases hDeclared :
          name ∈ (heap.methods cls).map MethodRecord.name
      · have hChange := Class.keepsIdentity_removeMethod name
        rw [Heap.step, removeMethod_of_declared hDeclared]
        exact ⟨hHeap.modifyMembers cls hChange fun _ => rfl,
          hWellFormed.evolves_modifyMembers cls hChange⟩
      · rw [Heap.step, removeMethod_of_absent hDeclared]
        exact ⟨hHeap, Evolves.refl heap⟩
  | buildTable cls =>
      exact ⟨(hHeap.slotTable cls).2,
        Evolves.of_bare_eq (heap.bare_slotTable cls)⟩
  | lookUp cls name =>
      exact ⟨(hHeap.resolve cls name).2,
        Evolves.of_bare_eq (heap.bare_resolve cls name)⟩

theorem run
    (hHeap : heap.Coherent)
    (steps : List HeapStep) :
    (heap.run steps).Coherent ∧
      heap.Evolves (heap.run steps) := by
  induction steps generalizing heap with
  | nil => exact ⟨hHeap, Evolves.refl heap⟩
  | cons first rest ih =>
      have hFirst := hHeap.step first
      have hRest := ih hFirst.1
      exact ⟨hRest.1, hFirst.2.trans hRest.2⟩

end Coherent

end Heap

------------------------------------------------------------
-- Detecting Changes
------------------------------------------------------------

/-
  Steps that change the members of a class: any declaration, and
  the removal of a declared method.
-/
def HeapStep.Mutates
    (heap : Heap)
    (cls : ClassId) : HeapStep → Prop
  | .define id .. | .defineStatic id .. => id = cls
  | .remove id name =>
    id = cls ∧ name ∈ (heap.methods id).map MethodRecord.name
  | _ => False

namespace Heap

/- A step that changes members is one change with one stamp. -/
theorem step_of_mutates
    {heap : Heap}
    {cls : ClassId}
    {step : HeapStep}
    (hMutates : step.Mutates heap cls) :
    ∃ change, Class.KeepsIdentity change ∧
      heap.step step = heap.modifyMembers cls change := by
  cases step with
  | define id name visibility body =>
      cases hMutates
      exact ⟨_,
        Class.keepsIdentity_insertMethod name visibility body,
        rfl⟩
  | defineStatic id name body =>
      cases hMutates
      exact ⟨_, Class.keepsIdentity_insertStatic name body, rfl⟩
  | remove id name =>
      rcases hMutates with ⟨rfl, hDeclared⟩
      refine ⟨_, Class.keepsIdentity_removeMethod name, ?_⟩
      rw [step, removeMethod_of_declared hDeclared]
  | newClass | newObject | buildTable | lookUp =>
      exact hMutates.elim

/-
  A change of members makes the versions of the class and its
  descendants one fresh value, newer than every version so far,
  and keeps all other versions.
-/
theorem version_step_of_mutates
    {heap : Heap}
    (hHeap : heap.WellFormed)
    {cls : ClassId}
    (hClass : (heap.class? cls).isSome)
    {step : HeapStep}
    (hMutates : step.Mutates heap cls)
    (id : ClassId) :
    (heap.step step).version id =
      if heap.isSubclass id cls then heap.epoch + 1
      else heap.version id := by
  rcases Option.isSome_iff_exists.mp hClass with ⟨c, hClass⟩
  rcases step_of_mutates hMutates with ⟨change, hChange, hStep⟩
  rw [hStep, version_modifyMembers hHeap hClass hChange]
  simp only [isSubclass, List.contains_iff_mem]

/-
  So the class has the fresh version, and a class has it as soon as
  its parent has it.
-/
theorem fresh_step_of_mutates
    {heap : Heap}
    (hHeap : heap.WellFormed)
    {cls : ClassId}
    (hClass : (heap.class? cls).isSome)
    {step : HeapStep}
    (hMutates : step.Mutates heap cls) :
    (heap.step step).version cls = heap.epoch + 1 ∧
      ∀ id c parent, heap.class? id = some c →
        c.parent? = some parent →
        (heap.step step).version parent = heap.epoch + 1 →
        (heap.step step).version id = heap.epoch + 1 := by
  have hVersion := version_step_of_mutates hHeap hClass hMutates
  constructor
  · rcases Option.isSome_iff_exists.mp hClass with ⟨c, hClass⟩
    have hSelf : heap.isSubclass cls cls = true :=
      List.contains_iff_mem.mpr (hHeap.mem_lineage_self hClass)
    rw [hVersion, if_pos hSelf]
  · intro id c parent hChild hParent hFresh
    have hLineage := (hHeap.lineage_of_parent? hChild hParent).2
    have hAbove : heap.isSubclass parent cls = true := by
      cases hApart : heap.isSubclass parent cls with
      | true => rfl
      | false =>
          have hPast := hHeap.version_le_epoch parent
          rw [hVersion, hApart, if_neg Bool.false_ne_true] at hFresh
          omega
    have hBelow : heap.isSubclass id cls = true := by
      rw [isSubclass, hLineage, List.contains_iff_mem]
      exact List.mem_cons_of_mem id
        (List.contains_iff_mem.mp hAbove)
    rw [hVersion, if_pos hBelow]

/-
  Layout versions detect changes, soundly and precisely. Take any
  two moments of one run. A change of members of a class at the
  later moment gives one version, newer than all versions at both
  moments, to the class, to those that have it for a parent, and so
  on to all its descendants, and no other class a new one; removing
  a method that is not declared changes nothing; and a class that
  has the same version at both moments resolves every name to the
  same record and slot, has the same class-scope members and the
  same slot table.
-/
theorem version_detects_changes
    (before between : List HeapStep)
    (earlier later : Heap)
    (hEarlier : earlier = run {} before)
    (hLater : later = earlier.run between) :
    (∀ cls step, (later.class? cls).isSome →
      step.Mutates later cls →
      ∃ fresh,
        (∀ id, earlier.version id < fresh) ∧
          (∀ id, later.version id < fresh) ∧
          (later.step step).version cls = fresh ∧
          (∀ id c parent, later.class? id = some c →
            c.parent? = some parent →
            (later.step step).version parent = fresh →
            (later.step step).version id = fresh) ∧
          ∀ id, (later.step step).version id =
            if later.isSubclass id cls then fresh
            else later.version id) ∧
      (∀ cls name,
        name ∉ (later.methods cls).map MethodRecord.name →
        later.removeMethod cls name = (false, later)) ∧
      ∀ id, earlier.version id = later.version id →
        (∀ name,
          (earlier.resolve id name).1 =
            (later.resolve id name).1) ∧
          (∀ name,
            earlier.resolveStatic id name =
              later.resolveStatic id name) ∧
          (earlier.slotTable id).1 = (later.slotTable id).1 := by
  subst hEarlier
  have hEarlier := (coherent_empty.run before).1
  have hRun := hEarlier.run between
  rw [← hLater] at hRun
  have hPast := hEarlier.wellFormed.version_le_epoch
  refine ⟨?_, ?_, ?_⟩
  · intro cls step hClass hMutates
    have hWellFormed := hRun.1.wellFormed
    rcases fresh_step_of_mutates hWellFormed hClass hMutates with
      ⟨hSelf, hChildren⟩
    refine ⟨later.epoch + 1, ?_, ?_, hSelf, hChildren, ?_⟩
    · intro id
      exact Nat.lt_succ_of_le
        (Nat.le_trans (hPast id) hRun.2.epoch_le)
    · intro id
      exact Nat.lt_succ_of_le (hWellFormed.version_le_epoch id)
    · exact version_step_of_mutates hWellFormed hClass hMutates
  · intro cls name hAbsent
    exact removeMethod_of_absent hAbsent
  · intro id hVersion
    have hSame := hRun.2.sameLayout
      (Nat.le_trans (Nat.le_of_eq hVersion.symm) (hPast id))
    refine ⟨?_, ?_, ?_⟩
    · intro name
      rw [(hEarlier.resolve id name).1,
        (hRun.1.resolve id name).1, hSame.found?]
    · intro name
      rw [hSame.resolveStatic]
    · rw [(hEarlier.slotTable id).1, (hRun.1.slotTable id).1,
        hSame.builtTable]

/-
  A parent with a method, its child and a stranger. A change of
  the stranger leaves the child at its version and its method
  where it was; removing the method from the parent gives parent
  and child a fresh version, and the stranger keeps its own.
-/
theorem version_detects_changes_of_parent :
    let earlier : Heap :=
      run {}
        [.newClass "Parent" none, .newClass "Child" (some 1),
          .newClass "Stranger" none,
          .define 1 "greet" .everyone none, .buildTable 2]
    let later : Heap :=
      earlier.run
        [.define 3 "greet" .owner none, .lookUp 2 "greet"]
    let removed : Heap := later.step (.remove 1 "greet")
    (earlier.version 2 = later.version 2 ∧
        (earlier.resolve 2 "greet").1 =
          (later.resolve 2 "greet").1) ∧
      (∀ id, earlier.version id < 6) ∧
      (∀ id, later.version id < 6) ∧
      removed.version 1 = 6 ∧
      removed.version 2 = 6 ∧
      removed.version 3 = 5 ∧ later.version 3 = 5 := by
  intro earlier later removed
  have hDetects :=
    version_detects_changes _ _ earlier later rfl rfl
  have hVersion : earlier.version 2 = later.version 2 := by
    decide
  have hParent :
      (later.class? 2).map Class.parent? = some (some 1) := by
    decide
  rcases Option.map_eq_some_iff.mp hParent with
    ⟨child, hChild, hParent⟩
  rcases hDetects.1 1 (.remove 1 "greet") (by decide)
      ⟨rfl, by decide⟩ with
    ⟨fresh, hEarlier, hLater, hSelf, hChildren, hOthers⟩
  have hFresh : fresh = 6 := by
    rw [← hSelf]
    decide
  subst hFresh
  have hStranger : later.version 3 = 5 := by
    decide
  refine ⟨⟨hVersion, ?_⟩, hEarlier, hLater, hSelf, ?_, ?_,
    hStranger⟩
  · exact (hDetects.2.2 2 hVersion).1 "greet"
  · exact hChildren 2 child 1 hChild hParent hSelf
  · rw [hOthers 3, if_neg (by decide)]
    exact hStranger

end Heap

end RegisterVM
