import RegisterVM.Object.Heap

/-
  Lineages and versions of well-formed heaps.

  A lineage is a chain of classes that all exist, each older than
  the one before it, and the lineage of an ancestor is an end of
  the lineage of its descendant. The version of a class is the
  newest stamp along this chain.

  Key definitions include:
    * `Heap.WellFormed`
    * `Class.bare`
    * `Heap.bare`

  Key theorems include:
    * `Heap.WellFormed.exists_of_mem_lineage`
    * `Heap.WellFormed.version_le_epoch`
    * `Heap.newest_le_iff`
-/

namespace RegisterVM

namespace Heap

------------------------------------------------------------
-- Classes By Identity
------------------------------------------------------------

@[simp]
theorem class?_zero
    (heap : Heap) :
    heap.class? 0 = none :=
  rfl

theorem class?_succ
    (heap : Heap)
    (i : Nat) :
    heap.class? (i + 1) = heap.classes[i]? := by
  simp [class?]

/- The identity that the next class will get is still free. -/
theorem class?_next
    (heap : Heap) :
    heap.class? (heap.classes.size + 1) = none := by
  simp [class?_succ]

/- Replacing a class is seen under its own identity only. -/
theorem class?_setClass
    {heap : Heap}
    {id : ClassId}
    {old : Class}
    (hOld : heap.class? id = some old)
    (c : Class)
    (other : ClassId) :
    (heap.setClass id c).class? other =
      if other = id then some c else heap.class? other := by
  cases id with
  | zero => simp at hOld
  | succ i =>
      cases other with
      | zero => simp
      | succ j =>
          have hBound : i < heap.classes.size := by
            rw [class?_succ] at hOld
            exact (Array.getElem?_eq_some_iff.mp hOld).1
          by_cases hSame : j = i
          · subst hSame
            simp [class?_succ, setClass, hBound]
          · have hNe : i ≠ j := fun h => hSame h.symm
            simp [class?_succ, setClass, hSame, hNe]

@[simp]
theorem lineage_of_class?
    {heap : Heap}
    {id : ClassId}
    {c : Class}
    (hClass : heap.class? id = some c) :
    heap.lineage id = c.lineage := by
  simp [lineage, hClass]

theorem lineage_of_class?_none
    {heap : Heap}
    {id : ClassId}
    (hClass : heap.class? id = none) :
    heap.lineage id = [] := by
  simp [lineage, hClass]

------------------------------------------------------------
-- Well-Formed Heaps
------------------------------------------------------------

/-
  Every class knows its identity and continues the lineage of an
  older class, where the identity zero stands for having no
  parent. Stamps lie between one and the present moment, and no
  class declares a method name twice.
-/
structure WellFormed
    (heap : Heap) : Prop where
  lineage :
    ∀ id c, heap.class? id = some c →
      c.id = id ∧
        ∃ parent, parent < id ∧
          c.lineage = id :: heap.lineage parent
  stamped :
    ∀ id c, heap.class? id = some c →
      0 < c.stamp ∧ c.stamp ≤ heap.epoch
  distinct :
    ∀ id c, heap.class? id = some c →
      (c.methods.map MethodRecord.name).Nodup

theorem wellFormed_empty :
    WellFormed {} where
  lineage id c hClass := by
    cases id <;> simp [class?_succ] at hClass
  stamped id c hClass := by
    cases id <;> simp [class?_succ] at hClass
  distinct id c hClass := by
    cases id <;> simp [class?_succ] at hClass

namespace WellFormed

variable {heap : Heap}

/- A class stands at the head of its lineage. -/
theorem lineage_eq_cons
    (hHeap : heap.WellFormed)
    {id : ClassId}
    {c : Class}
    (hClass : heap.class? id = some c) :
    ∃ parent, parent < id ∧
      heap.lineage id = id :: heap.lineage parent := by
  rcases (hHeap.lineage id c hClass).2 with
    ⟨parent, hOlder, hLineage⟩
  refine ⟨parent, hOlder, ?_⟩
  rw [lineage_of_class? hClass, hLineage]

theorem mem_lineage_self
    (hHeap : heap.WellFormed)
    {id : ClassId}
    {c : Class}
    (hClass : heap.class? id = some c) :
    id ∈ heap.lineage id := by
  rcases hHeap.lineage_eq_cons hClass with ⟨_, _, hLineage⟩
  rw [hLineage]
  exact List.mem_cons_self

/-
  Induction along a lineage: a statement holds of every identity
  if it holds of those that stand for no class, and of a class
  whenever it holds of its parent.
-/
theorem lineage_induction
    (hHeap : heap.WellFormed)
    {motive : ClassId → Prop}
    (hNone : ∀ id, heap.class? id = none → motive id)
    (hSome :
      ∀ id c parent, heap.class? id = some c →
        heap.lineage id = id :: heap.lineage parent →
        motive parent → motive id)
    (id : ClassId) :
    motive id := by
  induction id using Nat.strongRecOn with
  | ind id ih =>
      cases hClass : heap.class? id with
      | none => exact hNone id hClass
      | some c =>
          rcases hHeap.lineage_eq_cons hClass with
            ⟨parent, hOlder, hLineage⟩
          exact hSome id c parent hClass hLineage
            (ih parent hOlder)

/- Every member of a lineage is a class. -/
theorem exists_of_mem_lineage
    (hHeap : heap.WellFormed)
    {id ancestor : ClassId}
    (hMem : ancestor ∈ heap.lineage id) :
    ∃ c, heap.class? ancestor = some c := by
  induction id using hHeap.lineage_induction with
  | hNone id hClass =>
      rw [lineage_of_class?_none hClass] at hMem
      cases hMem
  | hSome id c parent hClass hLineage ih =>
      rw [hLineage] at hMem
      rcases List.mem_cons.mp hMem with hSelf | hAbove
      · exact ⟨c, hSelf ▸ hClass⟩
      · exact ih hAbove

/- The parent of a class is there, and so is its lineage. -/
theorem lineage_of_parent?
    (hHeap : heap.WellFormed)
    {id : ClassId}
    {c : Class}
    (hClass : heap.class? id = some c)
    {parent : ClassId}
    (hParent : c.parent? = some parent) :
    (heap.class? parent).isSome ∧
      heap.lineage id = id :: heap.lineage parent := by
  rcases (hHeap.lineage id c hClass).2 with
    ⟨older, _, hLineage⟩
  rw [Class.parent?, hLineage, List.getElem?_cons_succ] at hParent
  cases hOlder : heap.class? older with
  | none =>
      rw [lineage_of_class?_none hOlder] at hParent
      cases hParent
  | some d =>
      rcases hHeap.lineage_eq_cons hOlder with ⟨_, _, hAbove⟩
      rw [hAbove] at hParent
      cases hParent
      refine ⟨by rw [hOlder]; rfl, ?_⟩
      rw [lineage_of_class? hClass, hLineage]

/- Without a parent, a class is its own lineage. -/
theorem lineage_of_root
    (hHeap : heap.WellFormed)
    {id : ClassId}
    {c : Class}
    (hClass : heap.class? id = some c)
    (hParent : c.parent? = none) :
    heap.lineage id = [id] := by
  rcases (hHeap.lineage id c hClass).2 with
    ⟨older, _, hLineage⟩
  rw [Class.parent?, hLineage, List.getElem?_cons_succ,
    List.getElem?_eq_none_iff] at hParent
  have hAbove : heap.lineage older = [] :=
    List.eq_nil_of_length_eq_zero (Nat.le_zero.mp hParent)
  rw [lineage_of_class? hClass, hLineage, hAbove]

end WellFormed

------------------------------------------------------------
-- Newest Stamps
------------------------------------------------------------

/- A start value takes part like one more stamp. -/
theorem foldl_newest
    (heap : Heap)
    (ids : List ClassId)
    (start : Nat) :
    ids.foldl
        (fun version id => max version (heap.stamp id))
        start =
      max start (heap.newest ids) := by
  induction ids generalizing start with
  | nil => simp [newest]
  | cons first rest ih =>
      rw [newest, List.foldl_cons, List.foldl_cons, ih, ih]
      omega

/- The newest stamp, one class after the other. -/
theorem newest_cons
    (heap : Heap)
    (id : ClassId)
    (ids : List ClassId) :
    heap.newest (id :: ids) =
      max (heap.stamp id) (heap.newest ids) := by
  rw [newest, List.foldl_cons, foldl_newest, Nat.zero_max]

@[simp]
theorem newest_nil
    (heap : Heap) :
    heap.newest [] = 0 :=
  rfl

theorem newest_le_iff
    (heap : Heap)
    (ids : List ClassId)
    (bound : Nat) :
    heap.newest ids ≤ bound ↔
      ∀ id ∈ ids, heap.stamp id ≤ bound := by
  induction ids with
  | nil => simp
  | cons first rest ih =>
      rw [newest_cons, Nat.max_le, ih]
      simp

/- A stamp on the list that no other exceeds is the newest. -/
theorem newest_eq_of_mem
    {heap : Heap}
    {ids : List ClassId}
    {id : ClassId}
    (hMem : id ∈ ids)
    (hNewest : ∀ other ∈ ids, heap.stamp other ≤ heap.stamp id) :
    heap.newest ids = heap.stamp id := by
  apply Nat.le_antisymm
  · exact (heap.newest_le_iff ids _).mpr hNewest
  · exact (heap.newest_le_iff ids _).mp (Nat.le_refl _) id hMem

theorem newest_congr
    {heap heap' : Heap}
    {ids : List ClassId}
    (hStamps : ∀ id ∈ ids, heap'.stamp id = heap.stamp id) :
    heap'.newest ids = heap.newest ids := by
  induction ids with
  | nil => rfl
  | cons first rest ih =>
      rw [newest_cons, newest_cons,
        hStamps first List.mem_cons_self,
        ih fun id hMem =>
          hStamps id (List.mem_cons_of_mem _ hMem)]

namespace WellFormed

variable {heap : Heap}

theorem stamp_le_epoch
    (hHeap : heap.WellFormed)
    (id : ClassId) :
    heap.stamp id ≤ heap.epoch := by
  cases hClass : heap.class? id with
  | none => simp [stamp, hClass]
  | some c =>
      simpa [stamp, hClass] using
        (hHeap.stamped id c hClass).2

/- No version is newer than the present moment. -/
theorem version_le_epoch
    (hHeap : heap.WellFormed)
    (id : ClassId) :
    heap.version id ≤ heap.epoch :=
  (heap.newest_le_iff _ _).mpr fun other _ =>
    hHeap.stamp_le_epoch other

end WellFormed

end Heap

------------------------------------------------------------
-- Heaps Without Kept Tables
------------------------------------------------------------

/- A class without the table kept for it. -/
def Class.bare
    (c : Class) : Class :=
  { c with table := none }

namespace Heap

/- A heap without kept tables. -/
def bare
    (heap : Heap) : Heap :=
  { heap with classes := heap.classes.map Class.bare }

@[simp]
theorem epoch_bare
    (heap : Heap) :
    heap.bare.epoch = heap.epoch :=
  rfl

@[simp]
theorem class?_bare
    (heap : Heap)
    (id : ClassId) :
    heap.bare.class? id = (heap.class? id).map Class.bare := by
  cases id with
  | zero => rfl
  | succ i => simp [class?_succ, bare]

/-
  What does not read kept tables is the same for a heap and its
  bare form.
-/
theorem map_class?_bare
    {α : Type}
    (heap : Heap)
    (id : ClassId)
    (f : Class → α)
    (hBare : ∀ c : Class, f c.bare = f c) :
    (heap.bare.class? id).map f = (heap.class? id).map f := by
  rw [class?_bare, Option.map_map]
  congr 1
  funext c
  exact hBare c

@[simp]
theorem className_bare
    (heap : Heap)
    (id : ClassId) :
    heap.bare.className id = heap.className id := by
  unfold className
  rw [map_class?_bare heap id Class.name fun _ => rfl]

@[simp]
theorem lineage_bare
    (heap : Heap)
    (id : ClassId) :
    heap.bare.lineage id = heap.lineage id := by
  unfold lineage
  rw [map_class?_bare heap id Class.lineage fun _ => rfl]

@[simp]
theorem stamp_bare
    (heap : Heap)
    (id : ClassId) :
    heap.bare.stamp id = heap.stamp id := by
  unfold stamp
  rw [map_class?_bare heap id Class.stamp fun _ => rfl]

@[simp]
theorem methods_bare
    (heap : Heap)
    (id : ClassId) :
    heap.bare.methods id = heap.methods id := by
  unfold methods
  rw [map_class?_bare heap id Class.methods fun _ => rfl]

@[simp]
theorem newest_bare
    (heap : Heap)
    (ids : List ClassId) :
    heap.bare.newest ids = heap.newest ids :=
  newest_congr fun id _ => heap.stamp_bare id

@[simp]
theorem version_bare
    (heap : Heap)
    (id : ClassId) :
    heap.bare.version id = heap.version id := by
  unfold version
  rw [lineage_bare, newest_bare]

end Heap

end RegisterVM
