import Mathlib.Logic.ExistsUnique
import RegisterVM.Proofs.Object.Evolution

/-
  Slot tables. The slots of a class are built along its lineage,
  from the oldest ancestor down. Each method that is placed keeps
  the index in step with the slots, and each slot holds the nearest
  declaration of its name that is not private. A kept table is
  either the one that would be built now or of a version that no
  class will have again, so it never matters which tables happen
  to be kept.

  Key definitions include:
    * `SlotTable.Indexes`
    * `SlotTable.held?`
    * `Heap.slotsOf`
    * `Heap.builtTable`
    * `Heap.nearestOpen?`
    * `Heap.Coherent`

  Key theorems include:
    * `SlotTable.Indexes.place`
    * `Heap.indexes_builtTable`
    * `Heap.held?_slotsOf`
    * `Heap.WellFormed.slot_of_found?`
    * `Heap.Coherent.slotTable_fst`
    * `Heap.Coherent.resolve_fst`
    * `Heap.Coherent.of_evolves`
-/

namespace RegisterVM

------------------------------------------------------------
-- Names And Slots
------------------------------------------------------------

namespace SlotTable

/-
  A table in which names and slots belong together: each slot is
  the slot of one name, and holds a record of that name that is not
  private.
-/
structure Indexes
    (table : SlotTable) : Prop where
  one :
    ∀ slot, slot < table.slots.size →
      ∃! name, table.slotOf? name = some slot
  holds :
    ∀ name slot, table.slotOf? name = some slot →
      ∃ record, table.get? slot = some record ∧
        record.name = name ∧ record.visibility ≠ .owner

/- The record in the slot of a name. -/
def held?
    (table : SlotTable)
    (name : String) : Option MethodRecord :=
  (table.slotOf? name).bind table.get?

section Tables

variable {table : SlotTable} {record : MethodRecord}
  {name other : String} {slot : Nat}

/- A table without slots has nothing to index. -/
theorem indexes_empty
    (version : Nat) :
    Indexes { version } where
  one slot hBound := absurd hBound (Nat.not_lt_zero slot)
  holds name slot hSlot := by cases hSlot

theorem get?_of_slotOf?
    (hSlot : table.slotOf? name = some slot) :
    table.get? slot = table.held? name := by
  rw [held?, hSlot, Option.bind_some]

theorem get?_eq_some_iff :
    table.get? slot = some record ↔
      ∃ hBound : slot < table.slots.size,
        table.slots[slot] = record :=
  Array.getElem?_eq_some_iff

namespace Indexes

/- The slots in the index are slots of the table. -/
theorem bound
    (hIndexes : table.Indexes)
    (hSlot : table.slotOf? name = some slot) :
    slot < table.slots.size := by
  rcases hIndexes.holds name slot hSlot with ⟨record, hHeld, _⟩
  exact (get?_eq_some_iff.mp hHeld).1

/- No two names have one slot. -/
theorem injective
    (hIndexes : table.Indexes)
    (hSlot : table.slotOf? name = some slot)
    (hOther : table.slotOf? other = some slot) :
    name = other :=
  (hIndexes.one slot (hIndexes.bound hSlot)).unique hSlot hOther

/- A name has a slot exactly when a record is held under it. -/
theorem slotOf?_isSome
    (hIndexes : table.Indexes)
    (name : String) :
    (table.slotOf? name).isSome = (table.held? name).isSome := by
  unfold held?
  cases hSlot : table.slotOf? name with
  | none => rfl
  | some slot =>
      rcases hIndexes.holds name slot hSlot with ⟨record, hHeld, _⟩
      rw [Option.bind_some, hHeld]
      rfl

end Indexes

------------------------------------------------------------
-- Placing Methods
------------------------------------------------------------

/- A private method has no place. -/
theorem place_of_private
    (hPrivate : record.visibility = .owner) :
    table.place record = table :=
  if_pos hPrivate

/- An override goes into the slot that its name has. -/
theorem place_of_slot
    (hOpen : record.visibility ≠ .owner)
    (hSlot : table.slotOf? record.name = some slot) :
    table.place record =
      { table with
        slots := table.slots.setIfInBounds slot record } := by
  rw [place, if_neg hOpen, hSlot]

/- A name without a slot gets the next one. -/
theorem place_of_new
    (hOpen : record.visibility ≠ .owner)
    (hNew : table.slotOf? record.name = none) :
    table.place record =
      { table with
        slots := table.slots.push record
        index := (record.name, table.slots.size) :: table.index } := by
  rw [place, if_neg hOpen, hNew]

/- An override keeps the index as it is. -/
theorem slotOf?_place_of_slot
    (hOpen : record.visibility ≠ .owner)
    (hSlot : table.slotOf? record.name = some slot) :
    (table.place record).slotOf? = table.slotOf? := by
  rw [place_of_slot hOpen hSlot]
  rfl

/- A new name is entered with the next slot. -/
theorem slotOf?_place_of_new
    (hOpen : record.visibility ≠ .owner)
    (hNew : table.slotOf? record.name = none)
    (name : String) :
    (table.place record).slotOf? name =
      if name = record.name then some table.slots.size
      else table.slotOf? name := by
  rw [place_of_new hOpen hNew]
  unfold slotOf?
  rw [List.lookup_cons]
  by_cases hName : name = record.name
  · simp [hName]
  · simp [hName, beq_eq_false_iff_ne.mpr hName]

/- An override leaves names and slots together. -/
theorem Indexes.override
    (hIndexes : table.Indexes)
    (hOpen : record.visibility ≠ .owner)
    (hSlot : table.slotOf? record.name = some slot) :
    (table.place record).Indexes := by
  have hSame := slotOf?_place_of_slot hOpen hSlot
  have hBound := hIndexes.bound hSlot
  constructor
  · intro other hOther
    rw [hSame]
    rw [place_of_slot hOpen hSlot] at hOther
    exact hIndexes.one other (by simpa using hOther)
  · intro name other hOther
    rw [hSame] at hOther
    rw [place_of_slot hOpen hSlot]
    by_cases hHere : other = slot
    · subst hHere
      have hName := hIndexes.injective hOther hSlot
      refine ⟨record, ?_, hName.symm, hOpen⟩
      simp [get?, hBound]
    · rcases hIndexes.holds name other hOther with
        ⟨held, hHeld, hName, hVisible⟩
      refine ⟨held, ?_, hName, hVisible⟩
      rw [get?, Array.getElem?_setIfInBounds_ne (Ne.symm hHere)]
      exact hHeld

/- So does a name that gets the next slot. -/
theorem Indexes.enter
    (hIndexes : table.Indexes)
    (hOpen : record.visibility ≠ .owner)
    (hNew : table.slotOf? record.name = none) :
    (table.place record).Indexes := by
  have hLookup := slotOf?_place_of_new hOpen hNew
  constructor
  · intro slot hBound
    rw [place_of_new hOpen hNew, Array.size_push] at hBound
    by_cases hLast : slot = table.slots.size
    · refine ⟨record.name, ?_, ?_⟩
      · dsimp only
        rw [hLookup, if_pos rfl, hLast]
      · intro name hName
        rw [hLookup] at hName
        split at hName
        next hSame => exact hSame
        next =>
          have hPast := hIndexes.bound hName
          omega
    · rcases hIndexes.one slot (by omega) with ⟨name, hName, hOnly⟩
      refine ⟨name, ?_, ?_⟩
      · dsimp only at hName ⊢
        rw [hLookup, if_neg, hName]
        rintro rfl
        rw [hNew] at hName
        cases hName
      · intro other hOther
        rw [hLookup] at hOther
        split at hOther
        next =>
          cases hOther
          exact absurd rfl hLast
        next => exact hOnly other hOther
  · intro name slot hName
    rw [hLookup] at hName
    rw [place_of_new hOpen hNew]
    split at hName
    next hSame =>
      cases hName
      refine ⟨record, ?_, hSame.symm, hOpen⟩
      simp [get?]
    next =>
      rcases hIndexes.holds name slot hName with
        ⟨held, hHeld, hHeldName, hVisible⟩
      have hBound := hIndexes.bound hName
      refine ⟨held, ?_, hHeldName, hVisible⟩
      rw [get?, Array.getElem?_push_lt hBound,
        (get?_eq_some_iff.mp hHeld).2]

/- Placing a method keeps names and slots together. -/
theorem Indexes.place
    (hIndexes : table.Indexes)
    (record : MethodRecord) :
    (table.place record).Indexes := by
  by_cases hPrivate : record.visibility = .owner
  · rw [place_of_private hPrivate]
    exact hIndexes
  · cases hSlot : table.slotOf? record.name with
    | some slot => exact hIndexes.override hPrivate hSlot
    | none => exact hIndexes.enter hPrivate hSlot

theorem Indexes.extend
    (hIndexes : table.Indexes)
    (methods : List MethodRecord) :
    (table.extend methods).Indexes := by
  induction methods generalizing table with
  | nil => exact hIndexes
  | cons first rest ih => exact ih (hIndexes.place first)

/-
  Placing a method: a private one is left out, any other is held
  under its name from then on.
-/
theorem Indexes.held?_place
    (hIndexes : table.Indexes)
    (record : MethodRecord)
    (name : String) :
    (table.place record).held? name =
      if record.visibility ≠ .owner ∧ record.name = name then
        some record
      else
        table.held? name := by
  by_cases hPrivate : record.visibility = .owner
  · rw [place_of_private hPrivate, if_neg fun h => h.1 hPrivate]
  · cases hSlot : table.slotOf? record.name with
    | some slot =>
        have hBound := hIndexes.bound hSlot
        rw [held?, slotOf?_place_of_slot hPrivate hSlot,
          place_of_slot hPrivate hSlot]
        by_cases hName : record.name = name
        · rw [if_pos ⟨hPrivate, hName⟩, ← hName, hSlot]
          simp [get?, hBound]
        · rw [if_neg fun h => hName h.2, held?]
          cases hOther : table.slotOf? name with
          | none => rfl
          | some other =>
              have hApart : slot ≠ other := by
                rintro rfl
                exact hName (hIndexes.injective hSlot hOther)
              rw [Option.bind_some, Option.bind_some, get?,
                Array.getElem?_setIfInBounds_ne hApart]
              rfl
    | none =>
        rw [held?, slotOf?_place_of_new hPrivate hSlot,
          place_of_new hPrivate hSlot]
        by_cases hName : record.name = name
        · rw [if_pos hName.symm, if_pos ⟨hPrivate, hName⟩]
          simp [get?]
        · rw [if_neg fun h => hName h.symm,
            if_neg fun h => hName h.2, held?]
          cases hOther : table.slotOf? name with
          | none => rfl
          | some other =>
              have hBound := hIndexes.bound hOther
              rw [Option.bind_some, Option.bind_some, get?, get?,
                Array.getElem?_push_lt hBound,
                Array.getElem?_eq_getElem hBound]

/-
  Placing the methods of a class: what it declares under a name
  wins over what was held before, unless it is private.
-/
theorem Indexes.held?_extend
    (hIndexes : table.Indexes)
    (methods : List MethodRecord)
    (name : String)
    (hDistinct : (methods.map MethodRecord.name).Nodup) :
    (table.extend methods).held? name =
      ((findMethod? methods name).filter fun record =>
        record.visibility ≠ .owner).or (table.held? name) := by
  induction methods generalizing table with
  | nil => rfl
  | cons first rest ih =>
      rw [List.map_cons, List.nodup_cons] at hDistinct
      rw [SlotTable.extend, List.foldl_cons, ← SlotTable.extend,
        ih (hIndexes.place first) hDistinct.2,
        hIndexes.held?_place]
      by_cases hName : first.name = name
      · have hAbsent : findMethod? rest name = none := by
          apply List.find?_eq_none.mpr
          intro record hMem
          have hOther : record.name ≠ name := by
            intro hSame
            apply hDistinct.1
            rw [hName, ← hSame]
            exact List.mem_map_of_mem hMem
          simpa using hOther
        have hHere :
            findMethod? (first :: rest) name = some first := by
          simp [findMethod?, hName]
        rw [hAbsent, hHere]
        by_cases hPrivate : first.visibility = .owner
        · simp [Option.filter_some, hPrivate]
        · simp [Option.filter_some, hPrivate, hName]
      · have hThere :
            findMethod? (first :: rest) name =
              findMethod? rest name := by
          simp [findMethod?, hName]
        rw [hThere, if_neg fun h => hName h.2]

/- The version has no part in where methods are placed. -/
theorem place_withVersion
    (table : SlotTable)
    (version : Nat)
    (record : MethodRecord) :
    { table with version }.place record =
      { table.place record with version } := by
  unfold place slotOf?
  split
  next => rfl
  next =>
    dsimp only
    split <;> rfl

theorem extend_withVersion
    (table : SlotTable)
    (version : Nat)
    (methods : List MethodRecord) :
    { table with version }.extend methods =
      { table.extend methods with version } := by
  induction methods generalizing table with
  | nil => rfl
  | cons first rest ih =>
      rw [extend, List.foldl_cons, ← extend, place_withVersion, ih]
      rfl

theorem version_extend
    (table : SlotTable)
    (methods : List MethodRecord) :
    (table.extend methods).version = table.version := by
  have hSame := table.extend_withVersion table.version methods
  rw [hSame]

end Tables

end SlotTable

------------------------------------------------------------
-- Tables As They Would Be Built
------------------------------------------------------------

namespace Heap

/- The slots along a lineage, built without kept tables. -/
def slotsOf
    (heap : Heap) : List ClassId → SlotTable
  | [] => {}
  | id :: ancestors =>
    (heap.slotsOf ancestors).extend (heap.methods id)

/- The slot table of a class, built without kept tables. -/
def builtTable
    (heap : Heap)
    (id : ClassId) : SlotTable :=
  { heap.slotsOf (heap.lineage id) with version := heap.version id }

/- The table of a class continues the one of its parent. -/
theorem extend_builtTable
    (heap : Heap)
    {id parent : ClassId}
    (hLineage : heap.lineage id = id :: heap.lineage parent) :
    { heap.builtTable parent with
        version := heap.version id }.extend (heap.methods id) =
      heap.builtTable id := by
  unfold builtTable
  rw [hLineage]
  exact SlotTable.extend_withVersion
    (heap.slotsOf (heap.lineage parent)) (heap.version id)
    (heap.methods id)

/- The nearest declaration along a lineage that is not private. -/
def nearestOpen?
    (heap : Heap)
    (ids : List ClassId)
    (name : String) : Option MethodRecord :=
  ids.findSome? fun id =>
    (findMethod? (heap.methods id) name).filter fun record =>
      record.visibility ≠ .owner

/- What resolution finds, without kept tables. -/
def found?
    (heap : Heap)
    (id : ClassId)
    (name : String) : Option Resolved :=
  (heap.nearest? (heap.lineage id) name).map fun record =>
    { record
      slot :=
        if record.visibility = .owner then none
        else (heap.builtTable id).slotOf? name }

theorem findMethod?_methods
    (heap : Heap)
    (id : ClassId)
    (name : String) :
    findMethod? (heap.methods id) name =
      (heap.class? id).bind fun c => c.method? name := by
  unfold methods
  cases heap.class? id <;> rfl

theorem nodup_methods
    {heap : Heap}
    (hHeap : heap.WellFormed)
    (id : ClassId) :
    ((heap.methods id).map MethodRecord.name).Nodup := by
  unfold methods
  cases hClass : heap.class? id with
  | none => exact List.nodup_nil
  | some c => exact hHeap.distinct id c hClass

/- The index follows the slots from ancestor to descendant. -/
theorem indexes_slotsOf
    (heap : Heap)
    (ids : List ClassId) :
    (heap.slotsOf ids).Indexes := by
  induction ids with
  | nil => exact SlotTable.indexes_empty 0
  | cons id ancestors ih => exact ih.extend (heap.methods id)

theorem indexes_builtTable
    (heap : Heap)
    (id : ClassId) :
    (heap.builtTable id).Indexes :=
  ⟨(heap.indexes_slotsOf (heap.lineage id)).one,
    (heap.indexes_slotsOf (heap.lineage id)).holds⟩

/- Each slot holds the nearest declaration that is not private. -/
theorem held?_slotsOf
    {heap : Heap}
    (hHeap : heap.WellFormed)
    (ids : List ClassId)
    (name : String) :
    (heap.slotsOf ids).held? name =
      heap.nearestOpen? ids name := by
  induction ids with
  | nil => rfl
  | cons id ancestors ih =>
      rw [slotsOf,
        (heap.indexes_slotsOf ancestors).held?_extend _ _
          (nodup_methods hHeap id),
        ih, nearestOpen?, nearestOpen?, List.findSome?_cons]
      cases (findMethod? (heap.methods id) name).filter
          fun record => record.visibility ≠ .owner <;> rfl

theorem held?_builtTable
    {heap : Heap}
    (hHeap : heap.WellFormed)
    (id : ClassId)
    (name : String) :
    (heap.builtTable id).held? name =
      heap.nearestOpen? (heap.lineage id) name :=
  held?_slotsOf hHeap (heap.lineage id) name

/- A class declares at most one method of each name. -/
theorem findMethod?_of_mem
    {methods : List MethodRecord}
    (hDistinct : (methods.map MethodRecord.name).Nodup)
    {record : MethodRecord}
    (hMem : record ∈ methods) :
    findMethod? methods record.name = some record := by
  induction methods with
  | nil => cases hMem
  | cons first rest ih =>
      rw [List.map_cons, List.nodup_cons] at hDistinct
      rcases List.mem_cons.mp hMem with rfl | hLater
      · simp [findMethod?]
      · have hOther : first.name ≠ record.name := by
          intro hSame
          apply hDistinct.1
          rw [hSame]
          exact List.mem_map_of_mem hLater
        have hRest := ih hDistinct.2 hLater
        rw [← hRest]
        simp [findMethod?, hOther]

/-
  There is a nearest declaration that is not private exactly if
  some class of the lineage declares the name and not privately.
-/
theorem nearestOpen?_isSome
    {heap : Heap}
    (hHeap : heap.WellFormed)
    (ids : List ClassId)
    (name : String) :
    (heap.nearestOpen? ids name).isSome ↔
      ∃ id ∈ ids, ∃ record ∈ heap.methods id,
        record.name = name ∧ record.visibility ≠ .owner := by
  rw [nearestOpen?, List.findSome?_isSome_iff]
  constructor
  · rintro ⟨id, hId, hSome⟩
    rcases Option.isSome_iff_exists.mp hSome with
      ⟨record, hRecord⟩
    rcases Option.filter_eq_some_iff.mp hRecord with
      ⟨hFound, hOpen⟩
    have hName := List.find?_some hFound
    exact ⟨id, hId, record, List.mem_of_find?_eq_some hFound,
      beq_iff_eq.mp hName, of_decide_eq_true hOpen⟩
  · rintro ⟨id, hId, record, hMem, rfl, hOpen⟩
    refine ⟨id, hId, ?_⟩
    rw [findMethod?_of_mem (nodup_methods hHeap id) hMem]
    simp [Option.filter_some, hOpen]

/-
  A declaration that resolution finds and that is not private is
  also the nearest one among those that are not private.
-/
theorem nearestOpen?_of_nearest?
    {heap : Heap}
    {ids : List ClassId}
    {name : String}
    {record : MethodRecord}
    (hNearest : heap.nearest? ids name = some record)
    (hOpen : record.visibility ≠ .owner) :
    heap.nearestOpen? ids name = some record := by
  induction ids with
  | nil => cases hNearest
  | cons id ancestors ih =>
      rw [nearest?, List.findSome?_cons] at hNearest
      rw [nearestOpen?, List.findSome?_cons,
        findMethod?_methods]
      cases hHere :
          (heap.class? id).bind fun c => c.method? name with
      | none =>
          rw [hHere] at hNearest
          exact ih hNearest
      | some first =>
          rw [hHere] at hNearest
          cases hNearest
          simp [Option.filter_some, hOpen]

theorem name_of_nearest?
    {heap : Heap}
    {ids : List ClassId}
    {name : String}
    {record : MethodRecord}
    (hNearest : heap.nearest? ids name = some record) :
    record.name = name := by
  rcases List.exists_of_findSome?_eq_some hNearest with
    ⟨id, hMem, hHere⟩
  rcases Option.bind_eq_some_iff.mp hHere with ⟨c, _, hMethod⟩
  have hName := List.find?_some hMethod
  simpa using hName

/-
  What resolution finds has a slot exactly if it is not private,
  and the slot holds the very record that was found.
-/
theorem WellFormed.slot_of_found?
    {heap : Heap}
    (hHeap : heap.WellFormed)
    {id : ClassId}
    {name : String}
    {resolved : Resolved}
    (hFound : heap.found? id name = some resolved) :
    if resolved.record.visibility = .owner then
      resolved.slot = none
    else
      ∃ slot, resolved.slot = some slot ∧
        (heap.builtTable id).get? slot = some resolved.record := by
  rcases Option.map_eq_some_iff.mp hFound with
    ⟨record, hNearest, rfl⟩
  split
  next => rfl
  next hOpen =>
    dsimp only at hOpen ⊢
    have hHeld :
        (heap.builtTable id).held? name = some record := by
      rw [held?_builtTable hHeap]
      exact nearestOpen?_of_nearest? hNearest hOpen
    have hSlot := (heap.indexes_builtTable id).slotOf?_isSome name
    rw [hHeld] at hSlot
    rcases Option.isSome_iff_exists.mp hSlot with ⟨slot, hSlot⟩
    refine ⟨slot, hSlot, ?_⟩
    rw [SlotTable.get?_of_slotOf? hSlot, hHeld]

theorem name_of_found?
    {heap : Heap}
    {id : ClassId}
    {name : String}
    {resolved : Resolved}
    (hFound : heap.found? id name = some resolved) :
    resolved.record.name = name := by
  rcases Option.map_eq_some_iff.mp hFound with
    ⟨record, hNearest, rfl⟩
  exact name_of_nearest? hNearest

------------------------------------------------------------
-- Dependence On Content
------------------------------------------------------------

/- Two heaps in which some classes say the same. -/
def SameContent
    (heap heap' : Heap)
    (ids : List ClassId) : Prop :=
  ∀ id ∈ ids, heap'.content? id = heap.content? id

section Content

variable {heap heap' : Heap} {ids : List ClassId}

/- What reads only the content of a class reads the same. -/
theorem map_class?_of_content
    {α : Type}
    {id : ClassId}
    (hContent : heap'.content? id = heap.content? id)
    (f : Class → α)
    (hReads : ∀ c : Class, f c.content = f c) :
    (heap'.class? id).map f = (heap.class? id).map f := by
  have hThrough :
      ∀ heap : Heap,
        (heap.class? id).map f = (heap.content? id).map f := by
    intro heap
    rw [content?, Option.map_map]
    congr 1
    funext c
    exact (hReads c).symm
  rw [hThrough heap', hContent, ← hThrough heap]

theorem methods_of_content
    {id : ClassId}
    (hContent : heap'.content? id = heap.content? id) :
    heap'.methods id = heap.methods id := by
  unfold methods
  rw [map_class?_of_content hContent Class.methods fun _ => rfl]

theorem className_of_content
    {id : ClassId}
    (hContent : heap'.content? id = heap.content? id) :
    heap'.className id = heap.className id := by
  unfold className
  rw [map_class?_of_content hContent Class.name fun _ => rfl]

theorem SameContent.slotsOf
    (hSame : SameContent heap heap' ids) :
    heap'.slotsOf ids = heap.slotsOf ids := by
  induction ids with
  | nil => rfl
  | cons id ancestors ih =>
      rw [Heap.slotsOf, Heap.slotsOf,
        methods_of_content (hSame id List.mem_cons_self),
        ih fun other hMem =>
          hSame other (List.mem_cons_of_mem _ hMem)]

theorem SameContent.nearest?
    (hSame : SameContent heap heap' ids)
    (name : String) :
    heap'.nearest? ids name = heap.nearest? ids name := by
  induction ids with
  | nil => rfl
  | cons id ancestors ih =>
      have hAbove := ih fun other hMem =>
        hSame other (List.mem_cons_of_mem _ hMem)
      unfold Heap.nearest? at hAbove ⊢
      rw [List.findSome?_cons, List.findSome?_cons, hAbove,
        ← findMethod?_methods, ← findMethod?_methods,
        methods_of_content (hSame id List.mem_cons_self)]

/- The class-scope member that a class itself declares. -/
theorem static?_of_content
    {id : ClassId}
    (hContent : heap'.content? id = heap.content? id)
    (name : String) :
    ((heap'.class? id).bind fun c => c.static? name) =
      (heap.class? id).bind fun c => c.static? name := by
  have hThrough :
      ∀ heap : Heap,
        ((heap.class? id).bind fun c => c.static? name) =
          ((heap.class? id).map Class.statics).bind
            fun statics => statics.lookup name := by
    intro heap
    cases heap.class? id <;> rfl
  rw [hThrough heap', hThrough heap,
    map_class?_of_content hContent Class.statics fun _ => rfl]

theorem SameContent.findSome?_static?
    (hSame : SameContent heap heap' ids)
    (name : String) :
    (ids.findSome? fun id =>
        (heap'.class? id).bind fun c => c.static? name) =
      ids.findSome? fun id =>
        (heap.class? id).bind fun c => c.static? name := by
  induction ids with
  | nil => rfl
  | cons id ancestors ih =>
      rw [List.findSome?_cons, List.findSome?_cons,
        static?_of_content (hSame id List.mem_cons_self),
        ih fun other hMem =>
          hSame other (List.mem_cons_of_mem _ hMem)]

end Content

/-
  A class that looks the same in two heaps: it has one version,
  and it says the same with its whole lineage.
-/
structure SameLayout
    (heap heap' : Heap)
    (id : ClassId) : Prop where
  version : heap'.version id = heap.version id
  content : SameContent heap heap' (id :: heap.lineage id)

theorem Evolves.sameLayout
    {earlier later : Heap}
    (hEvolves : earlier.Evolves later)
    {id : ClassId}
    (hVersion : later.version id ≤ earlier.epoch) :
    SameLayout earlier later id where
  version := (hEvolves.unchanged id hVersion).1
  content := (hEvolves.unchanged id hVersion).2

namespace SameLayout

variable {heap heap' : Heap} {id : ClassId}

theorem lineage
    (hSame : SameLayout heap heap' id) :
    heap'.lineage id = heap.lineage id :=
  Evolves.lineage_eq (hSame.content id List.mem_cons_self)

theorem ancestors
    (hSame : SameLayout heap heap' id) :
    SameContent heap heap' (heap.lineage id) :=
  fun other hMem =>
    hSame.content other (List.mem_cons_of_mem _ hMem)

theorem className
    (hSame : SameLayout heap heap' id) :
    heap'.className id = heap.className id :=
  className_of_content (hSame.content id List.mem_cons_self)

theorem builtTable
    (hSame : SameLayout heap heap' id) :
    heap'.builtTable id = heap.builtTable id := by
  unfold Heap.builtTable
  rw [hSame.version, hSame.lineage, hSame.ancestors.slotsOf]

theorem found?
    (hSame : SameLayout heap heap' id)
    (name : String) :
    heap'.found? id name = heap.found? id name := by
  unfold Heap.found?
  rw [hSame.lineage, hSame.ancestors.nearest?,
    hSame.builtTable]

theorem resolveStatic
    (hSame : SameLayout heap heap' id)
    (name : String) :
    heap'.resolveStatic id name = heap.resolveStatic id name := by
  unfold Heap.resolveStatic
  rw [hSame.lineage, hSame.ancestors.findSome?_static?]

/- A class looks the same if its whole lineage stays as it is. -/
theorem of_class?
    (hClass :
      ∀ other ∈ id :: heap.lineage id,
        heap'.class? other = heap.class? other) :
    SameLayout heap heap' id where
  version := (Evolves.unchanged_of_class? hClass).1
  content := (Evolves.unchanged_of_class? hClass).2

/- Dropping kept tables changes no layout. -/
theorem of_bare_eq
    (hBare : heap'.bare = heap.bare)
    (id : ClassId) :
    SameLayout heap heap' id where
  version := by
    rw [← version_bare heap', hBare, version_bare]
  content other _ := by
    rw [← content?_bare heap', hBare, content?_bare]

end SameLayout

/- A class that is there looks the same beside a new one. -/
theorem WellFormed.sameLayout_newClass
    {heap : Heap}
    (hHeap : heap.WellFormed)
    (name : String)
    (parent : Option ClassId)
    {id : ClassId}
    {c : Class}
    (hClass : heap.class? id = some c) :
    SameLayout heap (heap.newClass name parent).2 id := by
  apply SameLayout.of_class?
  intro other hMem
  have hThere : ∃ d, heap.class? other = some d := by
    rcases List.mem_cons.mp hMem with rfl | hAbove
    · exact ⟨c, hClass⟩
    · exact hHeap.exists_of_mem_lineage hAbove
  rcases hThere with ⟨d, hOther⟩
  rw [class?_newClass_of_some name parent hOther, hOther]

------------------------------------------------------------
-- Kept Tables
------------------------------------------------------------

/-
  A coherent heap is well-formed, and each table that it keeps is
  of no future version, and is the built one if it is of the
  current version.
-/
structure Coherent
    (heap : Heap) : Prop where
  wellFormed : heap.WellFormed
  kept :
    ∀ id c table, heap.class? id = some c →
      c.table = some table →
      table.version ≤ heap.epoch ∧
        (heap.version id = table.version →
          table = heap.builtTable id)

/- Keeping a table changes nothing else. -/
theorem bare_keepTable
    (heap : Heap)
    (id : ClassId)
    (table : SlotTable) :
    (heap.keepTable id table).bare = heap.bare := by
  cases hClass : heap.class? id with
  | none => rw [keepTable_of_none hClass]
  | some c =>
      have hClasses :
          (heap.keepTable id table).bare.classes =
            heap.bare.classes := by
        apply Array.ext_getElem?
        intro i
        rw [← class?_succ, ← class?_succ, class?_bare,
          class?_bare, class?_keepTable hClass]
        split
        next hSame =>
          rw [hSame, hClass]
          rfl
        next => rfl
      simp only [keepTable, hClass] at hClasses ⊢
      exact congrArg (fun classes => { heap with classes })
        hClasses

/- Building a table changes kept tables only. -/
theorem bare_lineageTable
    (heap : Heap)
    (ids : List ClassId) :
    (heap.lineageTable ids).2.bare = heap.bare := by
  induction ids with
  | nil => rfl
  | cons id ancestors ih =>
      rw [lineageTable]
      split
      next => rfl
      next =>
        dsimp only
        rw [bare_keepTable, ih]

namespace Coherent

variable {heap : Heap}

theorem keepTable
    (hHeap : heap.Coherent)
    (id : ClassId) :
    (heap.keepTable id (heap.builtTable id)).Coherent := by
  have hBare := heap.bare_keepTable id (heap.builtTable id)
  have hSame := SameLayout.of_bare_eq hBare
  have hEpoch := congrArg Heap.epoch hBare
  rw [epoch_bare, epoch_bare] at hEpoch
  refine ⟨hHeap.wellFormed.of_bare_eq hBare, ?_⟩
  intro other c table hClass hTable
  rw [hEpoch, (hSame other).version, (hSame other).builtTable]
  cases hOld : heap.class? id with
  | none =>
      rw [keepTable_of_none hOld] at hClass
      exact hHeap.kept other c table hClass hTable
  | some old =>
      rw [class?_keepTable hOld] at hClass
      split at hClass
      next hHere =>
        cases hClass
        cases hTable
        subst hHere
        exact ⟨hHeap.wellFormed.version_le_epoch other,
          fun _ => rfl⟩
      next => exact hHeap.kept other c table hClass hTable

/-
  The table of a class is the built one, and the heap afterwards
  is coherent again.
-/
theorem slotTable
    (hHeap : heap.Coherent)
    (id : ClassId) :
    (heap.slotTable id).1 = heap.builtTable id ∧
      (heap.slotTable id).2.Coherent := by
  unfold Heap.slotTable
  -- The recursion goes up the lineage, from a class to its parent.
  induction id using hHeap.wellFormed.lineage_induction with
  | hNone id hClass =>
      have hLineage := lineage_of_class?_none hClass
      constructor
      · unfold builtTable version
        rw [hLineage]
        rfl
      · rw [hLineage]
        exact hHeap
  | hSome id c parent hClass hLineage ih =>
      have hVersion :
          heap.newest (id :: heap.lineage parent) =
            heap.version id := by
        rw [version, hLineage]
      rw [hLineage, lineageTable, hVersion]
      cases hKept : heap.keptTable? id (heap.version id) with
      | some table =>
          have hKept := Option.filter_eq_some_iff.mp hKept
          have hTable : c.table = some table := by
            simpa [hClass] using hKept.1
          have hCurrent : heap.version id = table.version := by
            simpa using (beq_iff_eq.mp hKept.2).symm
          exact
            ⟨(hHeap.kept id c table hClass hTable).2 hCurrent,
              hHeap⟩
      | none =>
          have hBare :=
            heap.bare_lineageTable (heap.lineage parent)
          have hSame := SameLayout.of_bare_eq hBare id
          have hBuilt :=
            heap.extend_builtTable hLineage
          rw [← ih.1, ← methods_of_content
            (hSame.content id List.mem_cons_self)] at hBuilt
          dsimp only
          rw [hBuilt]
          refine ⟨rfl, ?_⟩
          rw [← hSame.builtTable]
          exact ih.2.keepTable id

/- Resolution finds what it would find without kept tables. -/
theorem resolve
    (hHeap : heap.Coherent)
    (id : ClassId)
    (name : String) :
    (heap.resolve id name).1 = heap.found? id name ∧
      (heap.resolve id name).2.Coherent := by
  unfold Heap.resolve found?
  cases heap.nearest? (heap.lineage id) name with
  | none => exact ⟨rfl, hHeap⟩
  | some record =>
      by_cases hPrivate : record.visibility = .owner
      · simp [hPrivate, hHeap]
      · simp [hPrivate, hHeap.slotTable id]

/-
  Coherence survives every evolution that keeps no new table: a
  table that was current either still is, or its version is gone
  for good.
-/
theorem of_evolves
    {heap' : Heap}
    (hHeap : heap.Coherent)
    (hWellFormed : heap'.WellFormed)
    (hEvolves : heap.Evolves heap')
    (hKept :
      ∀ id c' table, heap'.class? id = some c' →
        c'.table = some table →
        ∃ c, heap.class? id = some c ∧ c.table = some table) :
    heap'.Coherent where
  wellFormed := hWellFormed
  kept id c' table hClass hTable := by
    rcases hKept id c' table hClass hTable with
      ⟨c, hOldClass, hOldTable⟩
    have hOld := hHeap.kept id c table hOldClass hOldTable
    refine ⟨Nat.le_trans hOld.1 hEvolves.epoch_le, ?_⟩
    intro hVersion
    have hSame := hEvolves.sameLayout
      (Nat.le_trans (Nat.le_of_eq hVersion) hOld.1)
    rw [hSame.builtTable]
    exact hOld.2 (hSame.version.symm.trans hVersion)

theorem newClass
    (hHeap : heap.Coherent)
    (name : String)
    (parent : Option ClassId) :
    (heap.newClass name parent).2.Coherent := by
  apply hHeap.of_evolves
    (hHeap.wellFormed.newClass name parent)
    (hHeap.wellFormed.evolves_newClass name parent)
  intro id c' table hClass hTable
  rw [class?_newClass] at hClass
  split at hClass
  next =>
    cases hClass
    cases hTable
  next => exact ⟨c', hClass, hTable⟩

theorem modifyMembers
    (hHeap : heap.Coherent)
    (id : ClassId)
    {change : Class → Class}
    (hChange : Class.KeepsIdentity change)
    (hTables : ∀ c, (change c).table = c.table) :
    (heap.modifyMembers id change).Coherent := by
  apply hHeap.of_evolves
    (hHeap.wellFormed.modifyMembers id hChange)
    (hHeap.wellFormed.evolves_modifyMembers id hChange)
  intro other c' table hClass hTable
  cases hOld : heap.class? id with
  | none =>
      rw [modifyMembers_of_none hOld] at hClass
      exact ⟨c', hClass, hTable⟩
  | some c =>
      rw [class?_modifyMembers hOld] at hClass
      split at hClass
      next hHere =>
        cases hClass
        subst hHere
        exact ⟨c, hOld, (hTables c).symm.trans hTable⟩
      next => exact ⟨c', hClass, hTable⟩

end Coherent

theorem coherent_empty :
    Coherent {} where
  wellFormed := wellFormed_empty
  kept id c table hClass := by
    cases id <;> simp [class?_succ] at hClass

theorem bare_slotTable
    (heap : Heap)
    (id : ClassId) :
    (heap.slotTable id).2.bare = heap.bare :=
  heap.bare_lineageTable _

/- Resolution changes kept tables only. -/
theorem bare_resolve
    (heap : Heap)
    (id : ClassId)
    (name : String) :
    (heap.resolve id name).2.bare = heap.bare := by
  unfold Heap.resolve
  split
  next => rfl
  next =>
    split
    next => rfl
    next => exact heap.bare_slotTable id

end Heap

end RegisterVM
