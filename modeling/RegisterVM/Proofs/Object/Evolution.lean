import RegisterVM.Proofs.Object.Lineage

/-
  How heaps change. Classes are created, and their members
  change. Every such change keeps a heap well-formed, and
  evolution is sound for versions: a class whose version is no
  newer than an earlier moment looks exactly as it did at that
  moment.

  Key definitions include:
    * `Class.KeepsIdentity`
    * `Class.content`
    * `Heap.Evolves`

  Key theorems include:
    * `Heap.version_modifyMembers`
    * `Heap.WellFormed.modifyMembers`
    * `Heap.WellFormed.newClass`
    * `Heap.WellFormed.evolves_modifyMembers`
    * `Heap.WellFormed.evolves_newClass`
-/

namespace RegisterVM

------------------------------------------------------------
-- Declaring Methods
------------------------------------------------------------

/- A declaration keeps its place or comes last. -/
theorem map_name_putMethod
    (methods : List MethodRecord)
    (record : MethodRecord) :
    (putMethod methods record).map MethodRecord.name =
      if record.name ∈ methods.map MethodRecord.name then
        methods.map MethodRecord.name
      else
        methods.map MethodRecord.name ++ [record.name] := by
  induction methods with
  | nil => simp [putMethod]
  | cons first rest ih =>
      by_cases hName : first.name = record.name
      · simp [putMethod, hName]
      · have hOther : record.name ≠ first.name :=
          fun h => hName h.symm
        simp only [putMethod, hName, if_false,
          List.map_cons, ih, List.mem_cons, hOther,
          false_or]
        split <;> simp

theorem nodup_putMethod
    {methods : List MethodRecord}
    (hDistinct : (methods.map MethodRecord.name).Nodup)
    (record : MethodRecord) :
    ((putMethod methods record).map MethodRecord.name).Nodup := by
  rw [map_name_putMethod]
  split
  next => exact hDistinct
  next hNew =>
    apply List.nodup_append.mpr
    refine ⟨hDistinct, by simp, ?_⟩
    intro name hMem last hLast hEq
    rw [List.mem_singleton] at hLast
    exact hNew (hLast ▸ hEq ▸ hMem)

namespace Class

/-
  A change of members: the identity, name and lineage of a class
  stay, and its method names stay distinct.
-/
structure KeepsIdentity
    (change : Class → Class) : Prop where
  id : ∀ c, (change c).id = c.id
  name : ∀ c, (change c).name = c.name
  lineage : ∀ c, (change c).lineage = c.lineage
  distinct :
    ∀ c : Class, (c.methods.map MethodRecord.name).Nodup →
      ((change c).methods.map MethodRecord.name).Nodup

theorem keepsIdentity_insertMethod
    (name : String)
    (visibility : Visibility)
    (body : Option Callable) :
    KeepsIdentity fun c => c.insertMethod name visibility body where
  id _ := rfl
  name _ := rfl
  lineage _ := rfl
  distinct _ hDistinct := nodup_putMethod hDistinct _

theorem keepsIdentity_insertStatic
    (name : String)
    (body : Callable) :
    KeepsIdentity fun c => c.insertStatic name body where
  id _ := rfl
  name _ := rfl
  lineage _ := rfl
  distinct _ hDistinct := hDistinct

theorem keepsIdentity_removeMethod
    (name : String) :
    KeepsIdentity fun c => c.removeMethod name where
  id _ := rfl
  name _ := rfl
  lineage _ := rfl
  distinct c hDistinct := by
    have hSublist :
        (c.methods.filter fun record => record.name ≠ name).Sublist
          c.methods :=
      List.filter_sublist
    exact hDistinct.sublist (hSublist.map MethodRecord.name)

/- What a class says, apart from its stamp and its kept table. -/
def content
    (c : Class) : Class :=
  { c with stamp := 0, table := none }

end Class

namespace Heap

------------------------------------------------------------
-- Single Changes
------------------------------------------------------------

theorem modifyMembers_of_none
    {heap : Heap}
    {id : ClassId}
    (hClass : heap.class? id = none)
    (change : Class → Class) :
    heap.modifyMembers id change = heap := by
  simp [modifyMembers, hClass]

section Modify

variable {heap : Heap} {id : ClassId} {c : Class}

/- The two writes of a change of members. -/
theorem modifyMembers_of_class?
    (hClass : heap.class? id = some c)
    (change : Class → Class) :
    heap.modifyMembers id change =
      { (heap.setClass id (change c)).setClass id
          { change c with stamp := heap.epoch + 1 } with
        epoch := heap.epoch + 1 } := by
  have hSet :
      (heap.setClass id (change c)).class? id =
        some (change c) := by
    rw [class?_setClass hClass, if_pos rfl]
  simp only [modifyMembers, hClass, touch, hSet]
  rfl

/- A change of members stamps the class with the next moment. -/
theorem class?_modifyMembers
    (hClass : heap.class? id = some c)
    (change : Class → Class)
    (other : ClassId) :
    (heap.modifyMembers id change).class? other =
      if other = id then
        some { change c with stamp := heap.epoch + 1 }
      else
        heap.class? other := by
  have hSet :
      (heap.setClass id (change c)).class? id =
        some (change c) := by
    rw [class?_setClass hClass, if_pos rfl]
  rw [modifyMembers_of_class? hClass]
  refine (class?_setClass hSet _ other).trans ?_
  rw [class?_setClass hClass]
  by_cases hSame : other = id
  · rw [if_pos hSame, if_pos hSame]
  · rw [if_neg hSame, if_neg hSame, if_neg hSame]

theorem epoch_modifyMembers
    (hClass : heap.class? id = some c)
    (change : Class → Class) :
    (heap.modifyMembers id change).epoch = heap.epoch + 1 := by
  rw [modifyMembers_of_class? hClass]

theorem stamp_modifyMembers
    (hClass : heap.class? id = some c)
    (change : Class → Class)
    (other : ClassId) :
    (heap.modifyMembers id change).stamp other =
      if other = id then heap.epoch + 1
      else heap.stamp other := by
  unfold stamp
  rw [class?_modifyMembers hClass]
  split <;> simp

theorem lineage_modifyMembers
    (hClass : heap.class? id = some c)
    {change : Class → Class}
    (hChange : Class.KeepsIdentity change)
    (other : ClassId) :
    (heap.modifyMembers id change).lineage other =
      heap.lineage other := by
  unfold lineage
  rw [class?_modifyMembers hClass]
  split
  next hSame =>
    subst hSame
    simp [hClass, hChange.lineage c]
  next => rfl

/-
  A change of members moves the class and its descendants to the
  next moment and leaves every other version as it is.
-/
theorem version_modifyMembers
    (hHeap : heap.WellFormed)
    (hClass : heap.class? id = some c)
    {change : Class → Class}
    (hChange : Class.KeepsIdentity change)
    (other : ClassId) :
    (heap.modifyMembers id change).version other =
      if id ∈ heap.lineage other then heap.epoch + 1
      else heap.version other := by
  unfold version
  rw [lineage_modifyMembers hClass hChange]
  have hSelf := stamp_modifyMembers hClass change id
  rw [if_pos rfl] at hSelf
  split
  next hMem =>
    rw [← hSelf]
    apply newest_eq_of_mem hMem
    intro ancestor _
    rw [hSelf, stamp_modifyMembers hClass]
    have hLe := hHeap.stamp_le_epoch ancestor
    split <;> omega
  next hNotMem =>
    apply newest_congr
    intro ancestor hAncestor
    rw [stamp_modifyMembers hClass, if_neg]
    intro hSame
    exact hNotMem (hSame ▸ hAncestor)

end Modify

/- A new class stands under the next free identity. -/
theorem class?_newClass
    (heap : Heap)
    (name : String)
    (parent : Option ClassId)
    (other : ClassId) :
    (heap.newClass name parent).2.class? other =
      if other = heap.classes.size + 1 then
        some
          { id := heap.classes.size + 1
            name
            lineage :=
              (heap.classes.size + 1) ::
                (parent.map heap.lineage).getD []
            stamp := heap.epoch + 1 }
      else
        heap.class? other := by
  cases other with
  | zero => simp
  | succ i =>
      rw [class?_succ, class?_succ]
      by_cases hNew : i = heap.classes.size
      · subst hNew
        cases parent <;> simp [newClass]
      · simp [newClass, Array.getElem?_push, hNew]

/- Keeping a table is seen in the class it is kept for only. -/
theorem class?_keepTable
    {heap : Heap}
    {id : ClassId}
    {c : Class}
    (hClass : heap.class? id = some c)
    (table : SlotTable)
    (other : ClassId) :
    (heap.keepTable id table).class? other =
      if other = id then some { c with table := some table }
      else heap.class? other := by
  simp only [keepTable, hClass]
  exact class?_setClass hClass _ other

theorem keepTable_of_none
    {heap : Heap}
    {id : ClassId}
    (hClass : heap.class? id = none)
    (table : SlotTable) :
    heap.keepTable id table = heap := by
  simp [keepTable, hClass]

------------------------------------------------------------
-- Changes Of Bare Heaps
------------------------------------------------------------

/- A heap is given by its classes and clocks. -/
theorem ext_class?
    {heap heap' : Heap}
    (hClass : ∀ id, heap.class? id = heap'.class? id)
    (hEpoch : heap.epoch = heap'.epoch)
    (hObjects : heap.objects = heap'.objects) :
    heap = heap' := by
  have hClasses : heap.classes = heap'.classes := by
    apply Array.ext_getElem?
    intro i
    rw [← class?_succ, ← class?_succ, hClass]
  cases heap
  cases heap'
  cases hClasses
  cases hEpoch
  cases hObjects
  rfl

theorem objects_modifyMembers
    (heap : Heap)
    (id : ClassId)
    (change : Class → Class) :
    (heap.modifyMembers id change).objects = heap.objects := by
  cases hClass : heap.class? id with
  | none => rw [modifyMembers_of_none hClass]
  | some c =>
      rw [modifyMembers_of_class? hClass]
      rfl

@[simp]
theorem bare_bare
    (heap : Heap) :
    heap.bare.bare = heap.bare := by
  apply ext_class?
  · intro id
    rw [class?_bare, class?_bare, Option.map_map]
    rfl
  · rfl
  · rfl

/- Kept tables have no part in a change of members. -/
theorem bare_modifyMembers
    (heap : Heap)
    (id : ClassId)
    {change : Class → Class}
    (hBare : ∀ c : Class, (change c.bare).bare = (change c).bare) :
    (heap.modifyMembers id change).bare =
      (heap.bare.modifyMembers id change).bare := by
  cases hClass : heap.class? id with
  | none =>
      have hBareClass : heap.bare.class? id = none := by
        rw [class?_bare, hClass]
        rfl
      rw [modifyMembers_of_none hClass,
        modifyMembers_of_none hBareClass, bare_bare]
  | some c =>
      have hBareClass : heap.bare.class? id = some c.bare := by
        rw [class?_bare, hClass]
        rfl
      apply ext_class?
      · intro other
        rw [class?_bare, class?_bare,
          class?_modifyMembers hClass,
          class?_modifyMembers hBareClass]
        split
        next =>
          exact congrArg
            (fun c : Class =>
              some { c with stamp := heap.epoch + 1 })
            (hBare c).symm
        next => rw [class?_bare, Option.map_map]; rfl
      · rw [epoch_bare, epoch_bare, epoch_modifyMembers hClass,
          epoch_modifyMembers hBareClass, epoch_bare]
      · exact (heap.objects_modifyMembers id change).trans
          (heap.bare.objects_modifyMembers id change).symm

theorem bare_newClass
    (heap : Heap)
    (name : String)
    (parent : Option ClassId) :
    (heap.newClass name parent).2.bare =
      (heap.bare.newClass name parent).2.bare := by
  apply ext_class?
  · intro other
    have hSize : heap.bare.classes.size = heap.classes.size :=
      Array.size_map
    have hLineage :
        parent.map heap.bare.lineage =
          parent.map heap.lineage := by
      congr 1
      funext p
      exact heap.lineage_bare p
    rw [class?_bare, class?_bare, class?_newClass,
      class?_newClass, hSize, hLineage]
    split
    next => rfl
    next => rw [class?_bare, Option.map_map]; rfl
  · rfl
  · rfl

------------------------------------------------------------
-- Well-Formedness Of Changed Heaps
------------------------------------------------------------

theorem le_size_of_class?
    {heap : Heap}
    {id : ClassId}
    {c : Class}
    (hClass : heap.class? id = some c) :
    id ≤ heap.classes.size := by
  cases id with
  | zero => exact Nat.zero_le _
  | succ i =>
      rw [class?_succ] at hClass
      exact (Array.getElem?_eq_some_iff.mp hClass).1

/- A class that is there stays under its identity. -/
theorem class?_newClass_of_some
    {heap : Heap}
    (name : String)
    (parent : Option ClassId)
    {id : ClassId}
    {c : Class}
    (hClass : heap.class? id = some c) :
    (heap.newClass name parent).2.class? id = some c := by
  have hBound := le_size_of_class? hClass
  rw [class?_newClass,
    if_neg (Nat.ne_of_lt (Nat.lt_succ_of_le hBound)), hClass]

theorem lineage_newClass_of_ne
    (heap : Heap)
    (name : String)
    (parent : Option ClassId)
    {other : ClassId}
    (hOther : other ≠ heap.classes.size + 1) :
    (heap.newClass name parent).2.lineage other =
      heap.lineage other := by
  unfold lineage
  rw [class?_newClass, if_neg hOther]

/- Any parent counts as an older class, or else as none. -/
theorem exists_older_lineage
    (heap : Heap)
    (parent : Option ClassId) :
    ∃ older, older ≤ heap.classes.size ∧
      (parent.map heap.lineage).getD [] =
        heap.lineage older := by
  cases parent with
  | none => exact ⟨0, Nat.zero_le _, rfl⟩
  | some p =>
      cases hClass : heap.class? p with
      | none =>
          refine ⟨0, Nat.zero_le _, ?_⟩
          exact lineage_of_class?_none hClass
      | some c =>
          exact ⟨p, le_size_of_class? hClass, rfl⟩

namespace WellFormed

variable {heap : Heap}

theorem modifyMembers
    (hHeap : heap.WellFormed)
    (id : ClassId)
    {change : Class → Class}
    (hChange : Class.KeepsIdentity change) :
    (heap.modifyMembers id change).WellFormed := by
  cases hClass : heap.class? id with
  | none =>
      rw [modifyMembers_of_none hClass]
      exact hHeap
  | some c =>
      have hSplit :
          ∀ other d,
            (heap.modifyMembers id change).class? other =
                some d →
              other = id ∧
                  d = { change c with
                    stamp := heap.epoch + 1 } ∨
                heap.class? other = some d := by
        intro other d hOther
        rw [class?_modifyMembers hClass] at hOther
        split at hOther
        next hSame =>
          exact Or.inl ⟨hSame, (Option.some.inj hOther).symm⟩
        next => exact Or.inr hOther
      refine ⟨?_, ?_, ?_⟩
      · intro other d hOther
        simp only [lineage_modifyMembers hClass hChange]
        rcases hSplit other d hOther with ⟨rfl, rfl⟩ | hOld
        · rcases hHeap.lineage other c hClass with
            ⟨hId, parent, hOlder, hLineage⟩
          exact ⟨(hChange.id c).trans hId, parent, hOlder,
            (hChange.lineage c).trans hLineage⟩
        · exact hHeap.lineage other d hOld
      · intro other d hOther
        rw [epoch_modifyMembers hClass]
        rcases hSplit other d hOther with ⟨rfl, rfl⟩ | hOld
        · exact ⟨Nat.succ_pos _, Nat.le_refl _⟩
        · have hStamp := hHeap.stamped other d hOld
          exact ⟨hStamp.1, Nat.le_succ_of_le hStamp.2⟩
      · intro other d hOther
        rcases hSplit other d hOther with ⟨rfl, rfl⟩ | hOld
        · exact hChange.distinct c
            (hHeap.distinct other c hClass)
        · exact hHeap.distinct other d hOld

theorem newClass
    (hHeap : heap.WellFormed)
    (name : String)
    (parent : Option ClassId) :
    (heap.newClass name parent).2.WellFormed := by
  refine ⟨?_, ?_, ?_⟩
  · intro id c hClass
    rw [class?_newClass] at hClass
    split at hClass
    next hNew =>
      cases hClass
      subst hNew
      rcases heap.exists_older_lineage parent with
        ⟨older, hOlder, hLineage⟩
      refine ⟨rfl, older, Nat.lt_succ_of_le hOlder, ?_⟩
      rw [lineage_newClass_of_ne heap name parent
        (Nat.ne_of_lt (Nat.lt_succ_of_le hOlder))]
      exact congrArg _ hLineage
    next =>
      rcases hHeap.lineage id c hClass with
        ⟨hId, older, hOlder, hLineage⟩
      have hBound := le_size_of_class? hClass
      have hOther : older ≠ heap.classes.size + 1 :=
        Nat.ne_of_lt
          (Nat.lt_of_lt_of_le hOlder (Nat.le_succ_of_le hBound))
      refine ⟨hId, older, hOlder, ?_⟩
      rw [lineage_newClass_of_ne heap name parent hOther]
      exact hLineage
  · intro id c hClass
    rw [class?_newClass] at hClass
    split at hClass
    next =>
      cases hClass
      exact ⟨Nat.succ_pos _, Nat.le_refl _⟩
    next =>
      have hStamp := hHeap.stamped id c hClass
      exact ⟨hStamp.1, Nat.le_succ_of_le hStamp.2⟩
  · intro id c hClass
    rw [class?_newClass] at hClass
    split at hClass
    next =>
      cases hClass
      exact List.nodup_nil
    next => exact hHeap.distinct id c hClass

/- Kept tables have no part in well-formedness. -/
theorem of_bare_eq
    {heap' : Heap}
    (hHeap : heap.WellFormed)
    (hBare : heap'.bare = heap.bare) :
    heap'.WellFormed := by
  have hEpoch : heap'.epoch = heap.epoch := by
    simpa using congrArg Heap.epoch hBare
  have hLineage :
      ∀ id, heap'.lineage id = heap.lineage id := by
    intro id
    rw [← lineage_bare heap', hBare, lineage_bare]
  have hMatch :
      ∀ id c', heap'.class? id = some c' →
        ∃ c, heap.class? id = some c ∧ c.bare = c'.bare := by
    intro id c' hClass
    have hBareClass := class?_bare heap' id
    rw [hBare, class?_bare, hClass] at hBareClass
    exact Option.map_eq_some_iff.mp hBareClass
  refine ⟨?_, ?_, ?_⟩
  · intro id c' hClass
    rcases hMatch id c' hClass with ⟨c, hOld, hSame⟩
    have hOld := hHeap.lineage id c hOld
    simp only [hLineage]
    rw [show c'.id = c.id from
        (congrArg Class.id hSame).symm,
      show c'.lineage = c.lineage from
        (congrArg Class.lineage hSame).symm]
    exact hOld
  · intro id c' hClass
    rcases hMatch id c' hClass with ⟨c, hOld, hSame⟩
    rw [hEpoch, show c'.stamp = c.stamp from
      (congrArg Class.stamp hSame).symm]
    exact hHeap.stamped id c hOld
  · intro id c' hClass
    rcases hMatch id c' hClass with ⟨c, hOld, hSame⟩
    rw [show c'.methods = c.methods from
      (congrArg Class.methods hSame).symm]
    exact hHeap.distinct id c hOld

end WellFormed

------------------------------------------------------------
-- Evolution
------------------------------------------------------------

/- What a class says, if it exists. -/
def content?
    (heap : Heap)
    (id : ClassId) : Option Class :=
  (heap.class? id).map Class.content

@[simp]
theorem content?_bare
    (heap : Heap)
    (id : ClassId) :
    heap.bare.content? id = heap.content? id :=
  map_class?_bare heap id Class.content fun _ => rfl

/-
  One heap comes after another: time has not gone back, and a
  class whose version is not newer than the earlier moment has
  that version from then, and says with its whole lineage what
  it said then.
-/
structure Evolves
    (earlier later : Heap) : Prop where
  epoch_le : earlier.epoch ≤ later.epoch
  unchanged :
    ∀ id, later.version id ≤ earlier.epoch →
      later.version id = earlier.version id ∧
        ∀ ancestor ∈ id :: earlier.lineage id,
          later.content? ancestor = earlier.content? ancestor

namespace Evolves

theorem refl
    (heap : Heap) :
    heap.Evolves heap where
  epoch_le := Nat.le_refl _
  unchanged _ _ := ⟨rfl, fun _ _ => rfl⟩

/- Equal content means equal lineage. -/
theorem lineage_eq
    {earlier later : Heap}
    {id : ClassId}
    (hContent : later.content? id = earlier.content? id) :
    later.lineage id = earlier.lineage id := by
  have hLineage :
      ∀ heap : Heap,
        heap.lineage id =
          ((heap.content? id).map Class.lineage).getD [] := by
    intro heap
    simp only [content?, Option.map_map]
    rfl
  rw [hLineage later, hContent, ← hLineage earlier]

theorem trans
    {first second third : Heap}
    (hFirst : first.Evolves second)
    (hSecond : second.Evolves third) :
    first.Evolves third where
  epoch_le := Nat.le_trans hFirst.epoch_le hSecond.epoch_le
  unchanged id hVersion := by
    rcases hSecond.unchanged id
        (Nat.le_trans hVersion hFirst.epoch_le) with
      ⟨hSame, hContent⟩
    rw [hSame] at hVersion
    rcases hFirst.unchanged id hVersion with
      ⟨hSame', hContent'⟩
    refine ⟨hSame.trans hSame', ?_⟩
    intro ancestor hMem
    have hLineage :=
      lineage_eq (hContent' id List.mem_cons_self)
    rw [hContent ancestor (hLineage ▸ hMem)]
    exact hContent' ancestor hMem

theorem of_bare_eq
    {earlier later : Heap}
    (hBare : later.bare = earlier.bare) :
    earlier.Evolves later where
  epoch_le := by
    have hEpoch := congrArg Heap.epoch hBare
    rw [epoch_bare, epoch_bare] at hEpoch
    exact Nat.le_of_eq hEpoch.symm
  unchanged id _ := by
    constructor
    · rw [← version_bare later, hBare, version_bare]
    · intro ancestor _
      rw [← content?_bare later, hBare, content?_bare]

/-
  A class looks the same in two heaps that have the same classes
  along its lineage.
-/
theorem unchanged_of_class?
    {earlier later : Heap}
    {id : ClassId}
    (hClass :
      ∀ ancestor ∈ id :: earlier.lineage id,
        later.class? ancestor = earlier.class? ancestor) :
    later.version id = earlier.version id ∧
      ∀ ancestor ∈ id :: earlier.lineage id,
        later.content? ancestor = earlier.content? ancestor := by
  have hLineage : later.lineage id = earlier.lineage id := by
    unfold lineage
    rw [hClass id List.mem_cons_self]
  constructor
  · unfold version
    rw [hLineage]
    apply newest_congr
    intro ancestor hMem
    unfold stamp
    rw [hClass ancestor (List.mem_cons_of_mem _ hMem)]
  · intro ancestor hMem
    unfold content?
    rw [hClass ancestor hMem]

/- Where the lineage was not touched, nothing has changed. -/
theorem of_untouched
    {earlier later : Heap}
    (touched : ClassId)
    (hEpoch : earlier.epoch ≤ later.epoch)
    (hOther :
      ∀ other, other ≠ touched →
        later.class? other = earlier.class? other)
    (hTouched :
      ∀ id, touched ∈ id :: earlier.lineage id →
        earlier.epoch < later.version id) :
    earlier.Evolves later where
  epoch_le := hEpoch
  unchanged id hVersion := by
    have hNotMem : touched ∉ id :: earlier.lineage id :=
      fun hMem =>
        absurd hVersion (Nat.not_le.mpr (hTouched id hMem))
    apply unchanged_of_class?
    intro ancestor hMem
    apply hOther
    intro hSame
    exact hNotMem (hSame ▸ hMem)

end Evolves

namespace WellFormed

variable {heap : Heap}

theorem evolves_modifyMembers
    (hHeap : heap.WellFormed)
    (id : ClassId)
    {change : Class → Class}
    (hChange : Class.KeepsIdentity change) :
    heap.Evolves (heap.modifyMembers id change) := by
  cases hClass : heap.class? id with
  | none =>
      rw [modifyMembers_of_none hClass]
      exact Evolves.refl heap
  | some c =>
      apply Evolves.of_untouched id
      · rw [epoch_modifyMembers hClass]
        exact Nat.le_succ _
      · intro other hOther
        rw [class?_modifyMembers hClass, if_neg hOther]
      · intro other hMem
        have hDescends : id ∈ heap.lineage other := by
          rcases List.mem_cons.mp hMem with hSelf | hAbove
          · exact hSelf ▸ hHeap.mem_lineage_self hClass
          · exact hAbove
        rw [version_modifyMembers hHeap hClass hChange,
          if_pos hDescends]
        exact Nat.lt_succ_self _

/- A new class has the version of the moment it is created. -/
theorem version_newClass
    (hHeap : heap.WellFormed)
    (name : String)
    (parent : Option ClassId) :
    (heap.newClass name parent).2.version
        (heap.classes.size + 1) =
      heap.epoch + 1 := by
  have hNew := class?_newClass heap name parent
    (heap.classes.size + 1)
  rw [if_pos rfl] at hNew
  have hAfter := hHeap.newClass name parent
  have hStamp :
      (heap.newClass name parent).2.stamp
          (heap.classes.size + 1) =
        heap.epoch + 1 := by
    rw [stamp, hNew]
    rfl
  rw [← hStamp]
  apply newest_eq_of_mem (hAfter.mem_lineage_self hNew)
  intro other _
  rw [hStamp]
  exact hAfter.stamp_le_epoch other

theorem evolves_newClass
    (hHeap : heap.WellFormed)
    (name : String)
    (parent : Option ClassId) :
    heap.Evolves (heap.newClass name parent).2 := by
  apply Evolves.of_untouched (heap.classes.size + 1)
  · exact Nat.le_succ _
  · intro other hOther
    rw [class?_newClass, if_neg hOther]
  · intro other hMem
    rcases List.mem_cons.mp hMem with hSelf | hAbove
    · rw [← hSelf, hHeap.version_newClass]
      exact Nat.lt_succ_self _
    · rcases hHeap.exists_of_mem_lineage hAbove with
        ⟨c, hClass⟩
      rw [class?_next] at hClass
      cases hClass

end WellFormed

end Heap

end RegisterVM
