import RegisterVM.Proofs.Object.Members

/-
  How the slots of a class are numbered. The slots of a table are
  one for each of its names, none of them private. A class keeps
  the slots of its parent, names, numbers and all, and numbers the
  names that it adds from there on, in the order in which it
  declares them.

  Key definitions include:
    * `SlotTable.Extends`
    * `Heap.LaidOut`

  Key theorems include:
    * `SlotTable.Indexes.extends_of_names`
    * `Heap.Coherent.indexes`
    * `Heap.Coherent.extends_of_parent?`
    * `Heap.slots_follow_declarations`
-/

namespace RegisterVM

------------------------------------------------------------
-- Numbers Of Names
------------------------------------------------------------

namespace SlotTable

/-
  A table that continues another: the names of the other table keep
  their slots and come first, and those of some more names that the
  other one does not have follow, numbered in their order.
-/
structure Extends
    (table inherited : SlotTable)
    (more : List String) : Prop where
  kept :
    ∀ name slot, inherited.slotOf? name = some slot →
      table.slotOf? name = some slot
  names :
    names table.slots =
      names inherited.slots ++
        more.filter fun name => name ∉ names inherited.slots
  added :
    ∀ i name,
      (more.filter fun name =>
          name ∉ SlotTable.names inherited.slots)[i]? = some name →
      table.slotOf? name = some (inherited.slots.size + i)

/- A table whose names start with those of another continues it. -/
theorem Indexes.extends_of_names
    {table inherited : SlotTable}
    (hIndexes : table.Indexes)
    (hInherited : inherited.Indexes)
    {more : List String}
    (hNames :
      SlotTable.names table.slots =
        SlotTable.names inherited.slots ++
          more.filter fun name =>
            name ∉ SlotTable.names inherited.slots) :
    table.Extends inherited more where
  kept name slot hSlot := by
    rw [hInherited.slotOf?_eq_some_iff] at hSlot
    have hBound := (List.getElem?_eq_some_iff.mp hSlot).1
    rw [hIndexes.slotOf?_eq_some_iff, hNames,
      List.getElem?_append_left hBound, hSlot]
  names := hNames
  added i name hAdded := by
    rw [hIndexes.slotOf?_eq_some_iff, hNames, ← length_names,
      List.getElem?_append_right (Nat.le_add_right _ i),
      Nat.add_sub_cancel_left]
    exact hAdded

end SlotTable

------------------------------------------------------------
-- Tables Along Lineages
------------------------------------------------------------

namespace Heap

variable {heap : Heap} {cls : ClassId} {c : Class}

namespace Coherent

/- Names and slots belong together in the table of every class. -/
theorem indexes
    (hHeap : heap.Coherent)
    (cls : ClassId) :
    (heap.slotTable cls).1.Indexes := by
  rw [(hHeap.slotTable cls).1]
  exact heap.indexes_builtTable cls

/- A class adds the names that it opens to those of its parent. -/
theorem extends_of_parent?
    (hHeap : heap.Coherent)
    (hClass : heap.class? cls = some c)
    {parent : ClassId}
    (hParent : c.parent? = some parent) :
    (heap.slotTable cls).1.Extends (heap.slotTable parent).1
      (heap.members cls).opened := by
  have hWellFormed := hHeap.wellFormed
  have hLineage :=
    (hWellFormed.lineage_of_parent? hClass hParent).2
  have hNames := hWellFormed.slotNames_cons cls (heap.lineage parent)
  rw [← hLineage, slotNames_lineage, slotNames_lineage,
    ← Members.opened_ofMethods (nodup_methods hWellFormed cls)]
    at hNames
  rw [(hHeap.slotTable cls).1, (hHeap.slotTable parent).1]
  exact
    (heap.indexes_builtTable cls).extends_of_names
      (heap.indexes_builtTable parent) hNames

/- A class without a parent has the names that it opens. -/
theorem names_of_root
    (hHeap : heap.Coherent)
    (hClass : heap.class? cls = some c)
    (hParent : c.parent? = none) :
    SlotTable.names (heap.slotTable cls).1.slots =
      (heap.members cls).opened := by
  have hWellFormed := hHeap.wellFormed
  have hNames := hWellFormed.slotNames_cons cls []
  rw [← hWellFormed.lineage_of_root hClass hParent,
    slotNames_lineage,
    ← Members.opened_ofMethods (nodup_methods hWellFormed cls)]
    at hNames
  rw [(hHeap.slotTable cls).1, hNames]
  exact List.filter_eq_self.mpr fun _ _ =>
    decide_eq_true List.not_mem_nil

end Coherent

------------------------------------------------------------
-- Layouts
------------------------------------------------------------

/-
  What is true of the layout of a class: its methods have one place
  each in the order of declaration, its names and slots belong
  together, and its table continues that of its parent by the names
  that the class itself opens.
-/
structure LaidOut
    (heap : Heap)
    (cls : ClassId)
    (c : Class) : Prop where
  members : (heap.members cls).Consistent
  indexed : (heap.slotTable cls).1.Indexes
  root :
    c.parent? = none →
      SlotTable.names (heap.slotTable cls).1.slots =
        (heap.members cls).opened
  inherited :
    ∀ parent, c.parent? = some parent →
      (heap.class? parent).isSome ∧
        (heap.slotTable cls).1.Extends (heap.slotTable parent).1
          (heap.members cls).opened

/-
  Whatever was done to a heap, the layout of each of its classes
  follows the declarations. The members of a class are what the
  steps since its creation made of them: declaring a method again,
  with whatever visibility and body, keeps its place, and removing
  it before that moves it to the end.
-/
theorem slots_follow_declarations
    (steps : List HeapStep)
    (heap : Heap)
    (hHeap : heap = run {} steps)
    (cls : ClassId)
    (c : Class)
    (hClass : heap.class? cls = some c) :
    heap.LaidOut cls c ∧
      (∃ before name parent after,
        steps = before ++ .newClass name parent :: after ∧
          cls = (run {} before).classes.size + 1 ∧
          heap.members cls = Members.replay cls {} after) ∧
      ∀ name, name ∈ (heap.members cls).order →
        ∀ visibility body,
          ((heap.run [.define cls name visibility body]).members
              cls).order =
            (heap.members cls).order ∧
          ((heap.run
              [.remove cls name,
                .define cls name visibility body]).members
              cls).order =
            ((heap.members cls).order.filter fun other =>
                other ≠ name) ++
              [name] := by
  have hCoherent : heap.Coherent := by
    rw [hHeap]
    exact (coherent_empty.run steps).1
  have hThere : (heap.class? cls).isSome := by
    rw [hClass]
    rfl
  have hHistory :
      ∃ before name parent after,
        steps = before ++ .newClass name parent :: after ∧
          cls = (run {} before).classes.size + 1 ∧
          heap.members cls = Members.replay cls {} after := by
    rw [hHeap] at hThere ⊢
    exact members_run steps cls hThere
  have hMembers : (heap.members cls).Consistent := by
    rcases hHistory with ⟨_, _, _, after, _, _, hReplay⟩
    rw [hReplay]
    exact Members.consistent_empty.replay cls after
  refine ⟨⟨hMembers, hCoherent.indexes cls, ?_, ?_⟩, hHistory, ?_⟩
  · exact hCoherent.names_of_root hClass
  · intro parent hParent
    exact
      ⟨(hCoherent.wellFormed.lineage_of_parent? hClass hParent).1,
        hCoherent.extends_of_parent? hClass hParent⟩
  · intro name hMem visibility body
    have hDeclared := (hMembers.listed name).mp hMem
    have hStep := hCoherent.wellFormed.members_step hThere
    have hRemoved :
        ((heap.step (.remove cls name)).class? cls).isSome :=
      (isSome_class?_step heap _ cls).mpr (Or.inl hThere)
    have hNext :=
      (hCoherent.step (.remove cls name)).1.wellFormed.members_step
        hRemoved
    constructor
    · rw [run, List.foldl_cons, List.foldl_nil, hStep,
        Members.step, if_pos rfl]
      exact Members.order_insert_of_declared hDeclared
    · rw [run, List.foldl_cons, List.foldl_cons, List.foldl_nil,
        hNext, hStep, Members.step, if_pos rfl, Members.step,
        if_pos rfl]
      exact Members.order_remove_insert hDeclared

/-
  A child that overrides a method of its parent, declares a private
  one, opens two more, and removes and declares the first of these
  again: the override keeps its slot, the private method has none,
  and the other two are numbered in their new order.
-/
theorem slots_follow_declarations_of_moved :
    let steps : List HeapStep :=
      [.newClass "Base" none, .define 1 "a" .everyone none,
        .define 1 "b" .everyone none,
        .newClass "Derived" (some 1), .define 2 "c" .everyone none,
        .define 2 "b" .descendants none, .define 2 "p" .owner none,
        .define 2 "d" .everyone none, .remove 2 "c",
        .define 2 "c" .descendants none]
    let heap := run {} steps
    ∃ c, heap.class? 2 = some c ∧ c.parent? = some 1 ∧
      (heap.members 2).order = ["b", "p", "d", "c"] ∧
      (heap.members 2).opened = ["b", "d", "c"] ∧
      SlotTable.names (heap.slotTable 1).1.slots = ["a", "b"] ∧
      heap.LaidOut 2 c ∧
      (heap.slotTable 2).1.slotOf? "c" = some 3 := by
  intro steps heap
  have hClass :
      (heap.class? 2).map Class.parent? = some (some 1) := by
    decide +kernel
  rcases Option.map_eq_some_iff.mp hClass with
    ⟨c, hClass, hParent⟩
  have hOrder : (heap.members 2).order = ["b", "p", "d", "c"] := by
    decide +kernel
  have hOpened : (heap.members 2).opened = ["b", "d", "c"] := by
    decide +kernel
  have hAbove :
      SlotTable.names (heap.slotTable 1).1.slots = ["a", "b"] := by
    decide +kernel
  have hLaidOut :=
    (slots_follow_declarations steps heap rfl 2 c hClass).1
  refine ⟨c, hClass, hParent, hOrder, hOpened, hAbove, hLaidOut, ?_⟩
  have hAdded := (hLaidOut.inherited 1 hParent).2.added 1 "c"
  rw [hOpened, hAbove, ← SlotTable.length_names, hAbove] at hAdded
  exact hAdded rfl

end Heap

end RegisterVM
