import RegisterVM.Proofs.Object.SlotTables

/-
  Kept tables while classes change. A class that has changed and
  is not yet stamped may be read through the table that is kept
  for it, so tables of the current version are the built ones only
  where no class of the lineage is busy. Tables are built from the
  top of a lineage down, so a class that has a current table has
  current tables all the way up. A new stamp then gives up every
  current table below it, unless a newer stamp stands in between.

  Key definitions include:
    * `Heap.readsAlong`
    * `Heap.Current`
    * `Heap.Serves`
    * `Heap.CurrentUnless`

  Key theorems include:
    * `Heap.WellFormed.mem_lineage_or`
    * `Heap.class?_slotTable_of_notMem`
    * `Heap.CurrentUnless.slotTable`
    * `Heap.CurrentUnless.change`
    * `Heap.CurrentUnless.not_current_of_stamp`
    * `Heap.CurrentUnless.stamp`
-/

namespace RegisterVM

namespace Heap

------------------------------------------------------------
-- Lineages Within Lineages
------------------------------------------------------------

namespace WellFormed

variable {heap : Heap} {id ancestor other : ClassId}

/- The lineage of an ancestor ends the lineage. -/
theorem lineage_suffix
    (hHeap : heap.WellFormed)
    (hMem : ancestor ∈ heap.lineage id) :
    heap.lineage ancestor <:+ heap.lineage id := by
  induction id using hHeap.lineage_induction with
  | hNone id hClass =>
      rw [lineage_of_class?_none hClass] at hMem
      cases hMem
  | hSome id c parent hClass hLineage ih =>
      rw [hLineage] at hMem
      rcases List.mem_cons.mp hMem with rfl | hAbove
      · exact List.suffix_refl _
      · rw [hLineage]
        exact (ih hAbove).trans (List.suffix_cons id _)

/- Of two classes of a lineage, one descends from the other. -/
theorem mem_lineage_or
    (hHeap : heap.WellFormed)
    (hFirst : ancestor ∈ heap.lineage id)
    (hSecond : other ∈ heap.lineage id) :
    ancestor ∈ heap.lineage other ∨
      other ∈ heap.lineage ancestor := by
  rcases hHeap.exists_of_mem_lineage hFirst with ⟨c, hClass⟩
  rcases hHeap.exists_of_mem_lineage hSecond with ⟨d, hOther⟩
  rcases List.suffix_or_suffix_of_suffix
      (hHeap.lineage_suffix hFirst)
      (hHeap.lineage_suffix hSecond) with hSuffix | hSuffix
  · exact Or.inl
      (hSuffix.subset (hHeap.mem_lineage_self hClass))
  · exact Or.inr
      (hSuffix.subset (hHeap.mem_lineage_self hOther))

end WellFormed

/- A version is the stamp of a class of the lineage. -/
theorem exists_newest
    {heap : Heap}
    {ids : List ClassId}
    (hStamped : 0 < heap.newest ids) :
    ∃ id ∈ ids, heap.stamp id = heap.newest ids := by
  induction ids with
  | nil => cases hStamped
  | cons first rest ih =>
      rw [newest_cons] at hStamped ⊢
      by_cases hFirst : heap.newest rest ≤ heap.stamp first
      · refine ⟨first, List.mem_cons_self, ?_⟩
        omega
      · rcases ih (by omega) with ⟨id, hMem, hStamp⟩
        refine ⟨id, List.mem_cons_of_mem _ hMem, ?_⟩
        omega

theorem stamp_le_newest
    {heap : Heap}
    {ids : List ClassId}
    {id : ClassId}
    (hMem : id ∈ ids) :
    heap.stamp id ≤ heap.newest ids :=
  (heap.newest_le_iff ids _).mp (Nat.le_refl _) id hMem

------------------------------------------------------------
-- Replacing A Class
------------------------------------------------------------

section SetClass

variable {heap : Heap} {id : ClassId} {c : Class}

theorem lineage_setClass
    (hClass : heap.class? id = some c)
    (c' : Class)
    (hLineage : c'.lineage = c.lineage)
    (other : ClassId) :
    (heap.setClass id c').lineage other = heap.lineage other := by
  unfold lineage
  rw [class?_setClass hClass]
  split
  next hSame =>
    subst hSame
    simp [hClass, hLineage]
  next => rfl

theorem stamp_setClass
    (hClass : heap.class? id = some c)
    (c' : Class)
    (other : ClassId) :
    (heap.setClass id c').stamp other =
      if other = id then c'.stamp else heap.stamp other := by
  unfold stamp
  rw [class?_setClass hClass]
  split <;> simp

theorem WellFormed.setClass
    (hHeap : heap.WellFormed)
    (hClass : heap.class? id = some c)
    (c' : Class)
    (hId : c'.id = c.id)
    (hLineage : c'.lineage = c.lineage)
    (hStamp : 0 < c'.stamp ∧ c'.stamp ≤ heap.epoch)
    (hDistinct : (c'.methods.map MethodRecord.name).Nodup) :
    (heap.setClass id c').WellFormed := by
  refine ⟨?_, ?_, ?_⟩
  · intro other d hOther
    simp only [lineage_setClass hClass c' hLineage]
    rw [class?_setClass hClass] at hOther
    split at hOther
    next hSame =>
      subst hSame
      cases hOther
      rw [hId, hLineage]
      exact hHeap.lineage other c hClass
    next => exact hHeap.lineage other d hOther
  · intro other d hOther
    rw [class?_setClass hClass] at hOther
    split at hOther
    next =>
      cases hOther
      exact hStamp
    next => exact hHeap.stamped other d hOther
  · intro other d hOther
    rw [class?_setClass hClass] at hOther
    split at hOther
    next =>
      cases hOther
      exact hDistinct
    next => exact hHeap.distinct other d hOther

/- A class that does not descend from the one replaced. -/
theorem WellFormed.sameLayout_setClass
    (hHeap : heap.WellFormed)
    (hClass : heap.class? id = some c)
    (c' : Class)
    {other : ClassId}
    (hApart : id ∉ heap.lineage other) :
    SameLayout heap (heap.setClass id c') other := by
  apply SameLayout.of_class?
  intro ancestor hMem
  rw [class?_setClass hClass, if_neg]
  rintro rfl
  rcases List.mem_cons.mp hMem with rfl | hAbove
  · exact hApart (hHeap.mem_lineage_self hClass)
  · exact hApart hAbove

/- A class with the stamp that it had leaves all versions. -/
theorem version_setClass_of_stamp_eq
    (hClass : heap.class? id = some c)
    (c' : Class)
    (hLineage : c'.lineage = c.lineage)
    (hStamp : c'.stamp = c.stamp)
    (other : ClassId) :
    (heap.setClass id c').version other = heap.version other := by
  unfold version
  rw [lineage_setClass hClass c' hLineage]
  apply newest_congr
  intro ancestor _
  rw [stamp_setClass hClass]
  split
  next hSame => simp [hSame, Heap.stamp, hClass, hStamp]
  next => rfl

/- A stamp that is not older than the last one moves versions up. -/
theorem version_setClass
    (hClass : heap.class? id = some c)
    (c' : Class)
    (hLineage : c'.lineage = c.lineage)
    (hStamp : c.stamp ≤ c'.stamp)
    {other : ClassId}
    (hMem : id ∈ heap.lineage other) :
    (heap.setClass id c').version other =
      max (heap.version other) c'.stamp := by
  have hOld : heap.stamp id = c.stamp := by
    simp [Heap.stamp, hClass]
  have hNew := stamp_setClass hClass c'
  unfold version
  rw [lineage_setClass hClass c' hLineage]
  apply Nat.le_antisymm
  · apply (newest_le_iff _ _ _).mpr
    intro ancestor hAncestor
    have hBound := heap.stamp_le_newest hAncestor
    rw [hNew]
    split <;> omega
  · have hBound :=
      (heap.setClass id c').stamp_le_newest hMem
    rw [hNew, if_pos rfl] at hBound
    refine Nat.max_le.mpr ⟨?_, hBound⟩
    apply (newest_le_iff _ _ _).mpr
    intro ancestor hAncestor
    have hAfter :=
      (heap.setClass id c').stamp_le_newest hAncestor
    rw [hNew] at hAfter
    split at hAfter
    next hSame =>
      rw [hSame, hOld]
      omega
    next => exact hAfter

end SetClass

------------------------------------------------------------
-- Tables That Are Read
------------------------------------------------------------

/-
  The classes whose members are read when the table of the first
  class of a lineage is asked for: those below the first class
  that has a current table.
-/
def readsAlong
    (heap : Heap) : List ClassId → List ClassId
  | [] => []
  | id :: ancestors =>
    match heap.keptTable? id (heap.newest (id :: ancestors)) with
    | some _ => []
    | none => id :: heap.readsAlong ancestors

theorem readsAlong_subset
    (heap : Heap)
    (ids : List ClassId) :
    heap.readsAlong ids ⊆ ids := by
  induction ids with
  | nil => exact List.Subset.refl _
  | cons id ancestors ih =>
      rw [readsAlong]
      split
      next => exact List.nil_subset _
      next => exact List.cons_subset_cons id ih

theorem class?_keepTable_of_ne
    (heap : Heap)
    {id other : ClassId}
    (hOther : other ≠ id)
    (table : SlotTable) :
    (heap.keepTable id table).class? other = heap.class? other := by
  cases hClass : heap.class? id with
  | none => rw [keepTable_of_none hClass]
  | some c => rw [class?_keepTable hClass, if_neg hOther]

/- A class whose members are not read stays as it is. -/
theorem class?_slotTable_of_notMem
    {heap : Heap}
    {id other : ClassId}
    (hOther : other ∉ heap.readsAlong (heap.lineage id)) :
    (heap.slotTable id).2.class? other = heap.class? other := by
  unfold Heap.slotTable
  generalize heap.lineage id = ids at hOther ⊢
  induction ids with
  | nil => rfl
  | cons first rest ih =>
      rw [readsAlong] at hOther
      rw [lineageTable]
      cases hKept :
          heap.keptTable? first (heap.newest (first :: rest)) with
      | some table => rfl
      | none =>
          rw [hKept, List.mem_cons, not_or] at hOther
          exact (class?_keepTable_of_ne _ hOther.1 _).trans
            (ih hOther.2)

------------------------------------------------------------
-- Current Tables
------------------------------------------------------------

/- The table that is kept for a class. -/
def table?
    (heap : Heap)
    (id : ClassId) : Option SlotTable :=
  (heap.class? id).bind Class.table

/- A class has a table of its current version. -/
def Current
    (heap : Heap)
    (id : ClassId) : Prop :=
  ∃ table, heap.table? id = some table ∧
    table.version = heap.version id

/- No class of a lineage is busy. -/
def Idle
    (heap : Heap)
    (busy : ClassId → Prop)
    (id : ClassId) : Prop :=
  ∀ ancestor ∈ heap.lineage id, ¬ busy ancestor

/-
  A table for the current version of a class. It is the built one
  unless some class of the lineage is busy.
-/
structure Serves
    (heap : Heap)
    (busy : ClassId → Prop)
    (id : ClassId)
    (table : SlotTable) : Prop where
  version : table.version = heap.version id
  built : heap.Idle busy id → table = heap.builtTable id

/-
  A table that may be kept for a class: it is of no future version
  of the class, and it serves the class if it is current.
-/
structure MayKeep
    (heap : Heap)
    (busy : ClassId → Prop)
    (id : ClassId)
    (table : SlotTable) : Prop where
  past : table.version ≤ heap.version id
  current :
    table.version = heap.version id → heap.Serves busy id table

/-
  All tables that are kept may be kept, and the ancestors of a
  class that has a current table have current tables.
-/
structure CurrentUnless
    (heap : Heap)
    (busy : ClassId → Prop) : Prop where
  wellFormed : heap.WellFormed
  kept :
    ∀ id table, heap.table? id = some table →
      heap.MayKeep busy id table
  above :
    ∀ id, heap.Current id →
      ∀ ancestor ∈ heap.lineage id, heap.Current ancestor

section Same

variable {heap heap' : Heap} {busy busy' : ClassId → Prop}
variable {id : ClassId} {table : SlotTable}

theorem exists_of_table?
    (hTable : heap.table? id = some table) :
    ∃ c, heap.class? id = some c := by
  rcases Option.bind_eq_some_iff.mp hTable with ⟨c, hClass, _⟩
  exact ⟨c, hClass⟩

theorem current_congr
    (hVersion : heap'.version id = heap.version id)
    (hTable : heap'.table? id = heap.table? id) :
    heap'.Current id ↔ heap.Current id := by
  unfold Current
  rw [hVersion, hTable]

/- What serves a class serves it while it looks the same. -/
theorem Serves.of_sameLayout
    (hServes : heap.Serves busy id table)
    (hSame : SameLayout heap heap' id)
    (hStill :
      ∀ ancestor ∈ heap.lineage id,
        busy ancestor → busy' ancestor) :
    heap'.Serves busy' id table where
  version := by
    rw [hSame.version]
    exact hServes.version
  built hIdle := by
    rw [hSame.builtTable]
    apply hServes.built
    intro ancestor hMem hBusy
    rw [Idle, hSame.lineage] at hIdle
    exact hIdle ancestor hMem (hStill ancestor hMem hBusy)

theorem MayKeep.of_sameLayout
    (hKeep : heap.MayKeep busy id table)
    (hSame : SameLayout heap heap' id)
    (hStill :
      ∀ ancestor ∈ heap.lineage id,
        busy ancestor → busy' ancestor) :
    heap'.MayKeep busy' id table where
  past := by
    rw [hSame.version]
    exact hKeep.past
  current hVersion := by
    rw [hSame.version] at hVersion
    exact (hKeep.current hVersion).of_sameLayout hSame hStill

theorem Serves.mayKeep
    (hServes : heap.Serves busy id table) :
    heap.MayKeep busy id table where
  past := Nat.le_of_eq hServes.version
  current _ := hServes

theorem table?_setClass
    {c : Class}
    (hClass : heap.class? id = some c)
    (c' : Class)
    (hTable : c'.table = c.table)
    (other : ClassId) :
    (heap.setClass id c').table? other = heap.table? other := by
  unfold table?
  rw [class?_setClass hClass]
  split
  next hSame =>
    subst hSame
    rw [hClass]
    exact hTable
  next => rfl

theorem table?_newClass
    (heap : Heap)
    (name : String)
    (parent : Option ClassId)
    (other : ClassId) :
    (heap.newClass name parent).2.table? other =
      heap.table? other := by
  unfold table?
  rw [class?_newClass]
  split
  next hNew =>
    rw [hNew, class?_next]
    rfl
  next => rfl

theorem table?_keepTable
    {c : Class}
    (hClass : heap.class? id = some c)
    (table : SlotTable)
    (other : ClassId) :
    (heap.keepTable id table).table? other =
      if other = id then some table else heap.table? other := by
  unfold table?
  rw [class?_keepTable hClass]
  split <;> rfl

/- Keeping a current table makes its class current. -/
theorem current_keepTable
    {c : Class}
    (hClass : heap.class? id = some c)
    (hVersion : table.version = heap.version id)
    (other : ClassId) :
    (heap.keepTable id table).Current other ↔
      other = id ∨ heap.Current other := by
  have hSame := SameLayout.of_bare_eq
    (heap.bare_keepTable id table) other
  unfold Current
  rw [hSame.version, table?_keepTable hClass]
  by_cases hHere : other = id
  · subst hHere
    simp [hVersion]
  · simp [hHere]

end Same

namespace CurrentUnless

variable {heap : Heap} {busy busy' : ClassId → Prop}
variable {id : ClassId} {c : Class}

/- Whatever leaves classes and tables as they are. -/
theorem of_same
    {heap' : Heap}
    (hHeap : heap.CurrentUnless busy)
    (hWellFormed : heap'.WellFormed)
    (hTables : ∀ id, heap'.table? id = heap.table? id)
    (hSame :
      ∀ id c, heap.class? id = some c → SameLayout heap heap' id)
    (hStill : ∀ id, busy id → busy' id) :
    heap'.CurrentUnless busy' := by
  refine ⟨hWellFormed, ?_, ?_⟩
  · intro id table hTable
    rw [hTables] at hTable
    rcases exists_of_table? hTable with ⟨c, hClass⟩
    exact (hHeap.kept id table hTable).of_sameLayout
      (hSame id c hClass) fun ancestor _ => hStill ancestor
  · intro id hCurrent ancestor hMem
    rcases hCurrent with ⟨table, hTable, hVersion⟩
    rw [hTables] at hTable
    rcases exists_of_table? hTable with ⟨c, hClass⟩
    rw [(hSame id c hClass).version] at hVersion
    rw [(hSame id c hClass).lineage] at hMem
    rcases hHeap.wellFormed.exists_of_mem_lineage hMem with
      ⟨d, hAncestor⟩
    rw [current_congr (hSame ancestor d hAncestor).version
      (hTables ancestor)]
    exact hHeap.above id ⟨table, hTable, hVersion⟩ ancestor hMem

theorem newClass
    (hHeap : heap.CurrentUnless busy)
    (name : String)
    (parent : Option ClassId) :
    (heap.newClass name parent).2.CurrentUnless busy :=
  hHeap.of_same (hHeap.wellFormed.newClass name parent)
    (heap.table?_newClass name parent)
    (fun _ _ => hHeap.wellFormed.sameLayout_newClass name parent)
    fun _ hBusy => hBusy

theorem keepTable
    (hHeap : heap.CurrentUnless busy)
    (hClass : heap.class? id = some c)
    {table : SlotTable}
    (hServes : heap.Serves busy id table)
    (hAbove :
      ∀ ancestor ∈ heap.lineage id,
        ancestor = id ∨ heap.Current ancestor) :
    (heap.keepTable id table).CurrentUnless busy := by
  have hBare := heap.bare_keepTable id table
  have hSame := SameLayout.of_bare_eq hBare
  have hCurrent := current_keepTable hClass hServes.version
  refine ⟨hHeap.wellFormed.of_bare_eq hBare, ?_, ?_⟩
  · intro other kept hKept
    have hKeep : heap.MayKeep busy other kept := by
      rw [table?_keepTable hClass] at hKept
      split at hKept
      next hHere =>
        cases hKept
        subst hHere
        exact hServes.mayKeep
      next => exact hHeap.kept other kept hKept
    exact hKeep.of_sameLayout (hSame other) fun _ _ hBusy => hBusy
  · intro other hOther ancestor hMem
    rw [(hSame other).lineage] at hMem
    rw [hCurrent]
    rcases (hCurrent other).mp hOther with rfl | hOld
    · exact hAbove ancestor hMem
    · exact Or.inr (hHeap.above other hOld ancestor hMem)

/-
  The table of a class serves it, and asking for it leaves the
  class and its ancestors with current tables.
-/
theorem slotTable
    (hHeap : heap.CurrentUnless busy)
    (id : ClassId) :
    heap.Serves busy id (heap.slotTable id).1 ∧
      (heap.slotTable id).2.CurrentUnless busy ∧
      ∀ ancestor ∈ heap.lineage id,
        (heap.slotTable id).2.Current ancestor := by
  unfold Heap.slotTable
  -- The recursion goes up the lineage, from a class to its parent.
  induction id using hHeap.wellFormed.lineage_induction with
  | hNone id hClass =>
      have hLineage := lineage_of_class?_none hClass
      rw [hLineage]
      refine ⟨⟨?_, ?_⟩, hHeap, ?_⟩
      · rw [version, hLineage]
        rfl
      · intro _
        unfold builtTable version
        rw [hLineage]
        rfl
      · intro ancestor hMem
        cases hMem
  | hSome id c parent hClass hLineage ih =>
      have hVersion :
          heap.newest (id :: heap.lineage parent) =
            heap.version id := by
        rw [version, hLineage]
      rw [hLineage, lineageTable, hVersion]
      cases hKept : heap.keptTable? id (heap.version id) with
      | some table =>
          rcases Option.filter_eq_some_iff.mp hKept with
            ⟨hTable, hSame⟩
          have hCurrent : table.version = heap.version id :=
            beq_iff_eq.mp hSame
          have hAbove :=
            hHeap.above id ⟨table, hTable, hCurrent⟩
          rw [hLineage] at hAbove
          exact ⟨(hHeap.kept id table hTable).current hCurrent,
            hHeap, hAbove⟩
      | none =>
          rcases ih with ⟨hInherited, hAfter, hAbove⟩
          have hSame := SameLayout.of_bare_eq
            (heap.bare_lineageTable (heap.lineage parent)) id
          have hServes :
              heap.Serves busy id
                ({ (heap.lineageTable (heap.lineage parent)).1 with
                    version := heap.version id }.extend
                  ((heap.lineageTable
                    (heap.lineage parent)).2.methods id)) := by
            refine ⟨SlotTable.version_extend _ _, ?_⟩
            intro hIdle
            have hParent : heap.Idle busy parent := by
              intro ancestor hMem
              apply hIdle
              rw [hLineage]
              exact List.mem_cons_of_mem _ hMem
            rw [hInherited.built hParent, methods_of_content
              (hSame.content id List.mem_cons_self)]
            exact heap.extend_builtTable hLineage
          have hStill :=
            hServes.of_sameLayout hSame fun _ _ hBusy => hBusy
          have hMem :
              id ∈ (heap.lineageTable
                (heap.lineage parent)).2.lineage id := by
            rw [hSame.lineage]
            exact hHeap.wellFormed.mem_lineage_self hClass
          rcases hAfter.wellFormed.exists_of_mem_lineage hMem with
            ⟨d, hThere⟩
          have hBoth :
              ∀ ancestor ∈ id :: heap.lineage parent,
                ancestor = id ∨
                  (heap.lineageTable
                    (heap.lineage parent)).2.Current ancestor := by
            intro ancestor hAncestor
            rcases List.mem_cons.mp hAncestor with rfl | hHigher
            · exact Or.inl rfl
            · exact Or.inr (hAbove ancestor hHigher)
          refine ⟨hServes, hAfter.keepTable hThere hStill ?_, ?_⟩
          · rw [hSame.lineage, hLineage]
            exact hBoth
          · intro ancestor hAncestor
            exact (current_keepTable hThere hStill.version
              ancestor).mpr (hBoth ancestor hAncestor)

/- A class that changes its members is busy from then on. -/
theorem change
    (hHeap : heap.CurrentUnless busy)
    (hClass : heap.class? id = some c)
    {change : Class → Class}
    (hChange : Class.KeepsIdentity change)
    (hStamp : (change c).stamp = c.stamp)
    (hTable : (change c).table = c.table)
    (hBusy : busy' id)
    (hStill : ∀ other, busy other → busy' other) :
    (heap.setClass id (change c)).CurrentUnless busy' := by
  have hLineage :=
    lineage_setClass hClass (change c) (hChange.lineage c)
  have hTables := table?_setClass hClass (change c) hTable
  have hVersion :=
    version_setClass_of_stamp_eq hClass (change c)
      (hChange.lineage c) hStamp
  refine ⟨?_, ?_, ?_⟩
  · apply hHeap.wellFormed.setClass hClass (change c)
      (hChange.id c) (hChange.lineage c)
    · rw [hStamp]
      exact hHeap.wellFormed.stamped id c hClass
    · exact hChange.distinct c
        (hHeap.wellFormed.distinct id c hClass)
  · intro other table hKept
    rw [hTables] at hKept
    have hKeep := hHeap.kept other table hKept
    by_cases hMem : id ∈ heap.lineage other
    · refine ⟨?_, ?_⟩
      · rw [hVersion]
        exact hKeep.past
      · intro hCurrent
        refine ⟨hCurrent, ?_⟩
        intro hIdle
        rw [Idle, hLineage] at hIdle
        exact absurd hBusy (hIdle id hMem)
    · exact hKeep.of_sameLayout
        (hHeap.wellFormed.sameLayout_setClass hClass _ hMem)
        fun ancestor _ => hStill ancestor
  · intro other hCurrent ancestor hMem
    rw [current_congr (hVersion other) (hTables other)] at hCurrent
    rw [hLineage] at hMem
    rw [current_congr (hVersion ancestor) (hTables ancestor)]
    exact hHeap.above other hCurrent ancestor hMem

section Stamp

variable {moment : Nat}

/-
  A new stamp gives up every table below it. A version below it
  that is newer already comes from above, since no descendant has
  a newer stamp, and so the class itself has it too; but then the
  class has no current table, and no descendant has one.
-/
theorem not_current_of_stamp
    (hHeap : heap.CurrentUnless busy)
    (hClass : heap.class? id = some c)
    (hOwn : c.stamp < moment)
    (hNewer :
      ∀ other, other ≠ id → id ∈ heap.lineage other →
        heap.stamp other < moment)
    (hWaits : moment ≤ heap.version id → ¬ heap.Current id)
    {other : ClassId}
    (hMem : id ∈ heap.lineage other) :
    ¬ (heap.setClass id { c with stamp := moment }).Current
      other := by
  rintro ⟨table, hTable, hVersion⟩
  rw [table?_setClass hClass _ (by rfl)] at hTable
  rw [version_setClass hClass { c with stamp := moment } rfl
    (Nat.le_of_lt hOwn) hMem] at hVersion
  dsimp only at hVersion
  have hPast := (hHeap.kept other table hTable).past
  have hCurrent : heap.Current other :=
    ⟨table, hTable, by omega⟩
  have hLate : moment ≤ heap.version other := by
    omega
  have hStamped : 0 < heap.newest (heap.lineage other) :=
    Nat.lt_of_lt_of_le (Nat.zero_lt_of_lt hOwn) hLate
  rcases exists_newest hStamped with ⟨newest, hNewest, hStamp⟩
  rw [← version] at hStamp
  have hAbove : newest ∈ heap.lineage id := by
    rcases hHeap.wellFormed.mem_lineage_or hNewest hMem with
      hAbove | hBelow
    · exact hAbove
    · by_cases hSelf : newest = id
      · rw [hSelf]
        exact hHeap.wellFormed.mem_lineage_self hClass
      · have hOlder := hNewer newest hSelf hBelow
        omega
  have hSeen : moment ≤ heap.version id := by
    have hLe : heap.stamp newest ≤ heap.version id :=
      stamp_le_newest hAbove
    omega
  exact hWaits hSeen (hHeap.above other hCurrent id hMem)

/- A new stamp on a class that is no longer busy. -/
theorem stamp
    (hHeap : heap.CurrentUnless busy)
    (hClass : heap.class? id = some c)
    (hOwn : c.stamp < moment)
    (hPresent : moment ≤ heap.epoch)
    (hNewer :
      ∀ other, other ≠ id → id ∈ heap.lineage other →
        heap.stamp other < moment)
    (hWaits : moment ≤ heap.version id → ¬ heap.Current id)
    (hStill : ∀ other, other ≠ id → busy other → busy' other) :
    (heap.setClass id { c with stamp := moment }).CurrentUnless
      busy' := by
  have hLineage :=
    lineage_setClass hClass { c with stamp := moment } rfl
  have hTables :=
    table?_setClass hClass { c with stamp := moment } rfl
  have hBelow :
      ∀ other, id ∈ heap.lineage other →
        ¬ (heap.setClass id { c with stamp := moment }).Current
          other :=
    fun _ => hHeap.not_current_of_stamp hClass hOwn hNewer hWaits
  refine ⟨?_, ?_, ?_⟩
  · exact hHeap.wellFormed.setClass hClass _ rfl rfl
      ⟨Nat.zero_lt_of_lt hOwn, hPresent⟩
      (hHeap.wellFormed.distinct id c hClass)
  · intro other table hTable
    have hKept := hTable
    rw [hTables] at hKept
    have hKeep := hHeap.kept other table hKept
    by_cases hMem : id ∈ heap.lineage other
    · refine ⟨?_, ?_⟩
      · rw [version_setClass hClass { c with stamp := moment } rfl
          (Nat.le_of_lt hOwn) hMem]
        exact Nat.le_trans hKeep.past (Nat.le_max_left _ _)
      · intro hVersion
        exact absurd ⟨table, hTable, hVersion⟩ (hBelow other hMem)
    · apply hKeep.of_sameLayout
        (hHeap.wellFormed.sameLayout_setClass hClass _ hMem)
      intro ancestor hAncestor hBusy
      apply hStill ancestor _ hBusy
      rintro rfl
      exact hMem hAncestor
  · intro other hCurrent ancestor hAncestor
    rw [hLineage] at hAncestor
    by_cases hMem : id ∈ heap.lineage other
    · exact absurd hCurrent (hBelow other hMem)
    · have hApart : id ∉ heap.lineage ancestor := by
        intro hHigher
        exact hMem
          ((hHeap.wellFormed.lineage_suffix hAncestor).subset
            hHigher)
      have hSame :=
        hHeap.wellFormed.sameLayout_setClass hClass
          { c with stamp := moment } hMem
      have hSameAbove :=
        hHeap.wellFormed.sameLayout_setClass hClass
          { c with stamp := moment } hApart
      rw [current_congr hSame.version (hTables other)] at hCurrent
      rw [current_congr hSameAbove.version (hTables ancestor)]
      exact hHeap.above other hCurrent ancestor hAncestor

end Stamp

end CurrentUnless

end Heap

end RegisterVM
