import Mathlib.Data.List.Infix
import RegisterVM.Proofs.Object.KeptTables
import RegisterVM.Proofs.Object.Versions

/-
  Which slot a name has. The slots of a class are those of its
  parent and then one for each name that it adds and that is not
  private, in the order of declaration. Most changes of members
  therefore leave every slot where it is: those that replace an
  open method by an open one, that hide or uncover a name with an
  inherited slot, or that add a name at the end. Other removals,
  changes of visibility and additions to an ancestor move slots.

  Key definitions include:
    * `openNames`
    * `Heap.slotNames`
    * `HeapStep.KeepsSlots`
    * `Heap.KeepsSlots`

  Key theorems include:
    * `Heap.WellFormed.slotNames_cons`
    * `Heap.Coherent.prefix_step`
    * `Heap.Coherent.prefix_run`
    * `Heap.Coherent.slotOf?_run`
-/

namespace RegisterVM

------------------------------------------------------------
-- Open Names
------------------------------------------------------------

/- The names declared and not private, in declaration order. -/
def openNames
    (methods : List MethodRecord) : List String :=
  (methods.filter fun record => record.visibility ≠ .owner).map
    MethodRecord.name

theorem openNames_cons
    (first : MethodRecord)
    (rest : List MethodRecord) :
    openNames (first :: rest) =
      if first.visibility = .owner then openNames rest
      else first.name :: openNames rest := by
  by_cases hPrivate : first.visibility = .owner <;>
    simp [openNames, hPrivate]

theorem mem_names_of_open
    {methods : List MethodRecord}
    {name : String}
    (hOpen : name ∈ openNames methods) :
    name ∈ methods.map MethodRecord.name := by
  rcases List.mem_map.mp hOpen with ⟨record, hMem, rfl⟩
  exact List.mem_map_of_mem (List.mem_filter.mp hMem).1

/-
  Declaring a method again, open as before or private as before,
  keeps the open names and their order.
-/
theorem openNames_putMethod_of_iff
    {methods : List MethodRecord}
    {record : MethodRecord}
    (hDistinct : (methods.map MethodRecord.name).Nodup)
    (hSame :
      record.name ∈ openNames methods ↔
        record.visibility ≠ .owner) :
    openNames (putMethod methods record) = openNames methods := by
  induction methods with
  | nil =>
      have hPrivate : record.visibility = .owner := by
        simpa [openNames] using hSame
      simp [putMethod, openNames_cons, hPrivate]
  | cons first rest ih =>
      rw [List.map_cons, List.nodup_cons] at hDistinct
      rw [putMethod]
      by_cases hName : first.name = record.name
      · have hOnce : record.name ∉ openNames rest := by
          intro hOpen
          apply hDistinct.1
          rw [hName]
          exact mem_names_of_open hOpen
        rw [if_pos hName, openNames_cons, openNames_cons]
        rw [openNames_cons] at hSame
        by_cases hPrivate : first.visibility = .owner
        · have hStays : record.visibility = .owner := by
            simpa [hPrivate, hOnce] using hSame
          rw [if_pos hPrivate, if_pos hStays]
        · have hStays : record.visibility ≠ .owner := by
            simpa [hPrivate, hName] using hSame
          rw [if_neg hPrivate, if_neg hStays, hName]
      · have hRest :
            record.name ∈ openNames rest ↔
              record.visibility ≠ .owner := by
          rw [← hSame, openNames_cons]
          have hOther : record.name ≠ first.name :=
            fun h => hName h.symm
          split <;> simp [hOther]
        rw [if_neg hName, openNames_cons, openNames_cons,
          ih hDistinct.2 hRest]

/- A name that is left out does not matter, however declared. -/
theorem filter_openNames_putMethod
    (methods : List MethodRecord)
    {record : MethodRecord}
    {keep : String → Bool}
    (hOut : keep record.name = false) :
    (openNames (putMethod methods record)).filter keep =
      (openNames methods).filter keep := by
  induction methods with
  | nil =>
      rw [putMethod, openNames_cons]
      split <;> simp [openNames, hOut]
  | cons first rest ih =>
      rw [putMethod]
      by_cases hName : first.name = record.name
      · rw [if_pos hName, openNames_cons, openNames_cons]
        split <;> split <;> simp [hName, hOut]
      · rw [if_neg hName, openNames_cons, openNames_cons]
        split
        next => exact ih
        next => rw [List.filter_cons, List.filter_cons, ih]

/- A new method comes last. -/
theorem putMethod_of_new
    {methods : List MethodRecord}
    {record : MethodRecord}
    (hNew : record.name ∉ methods.map MethodRecord.name) :
    putMethod methods record = methods ++ [record] := by
  induction methods with
  | nil => rfl
  | cons first rest ih =>
      rw [List.map_cons, List.mem_cons, not_or] at hNew
      rw [putMethod, if_neg fun h => hNew.1 h.symm, ih hNew.2]
      rfl

theorem openNames_append
    (methods more : List MethodRecord) :
    openNames (methods ++ more) =
      openNames methods ++ openNames more := by
  simp [openNames]

/- Removing a method removes its name. -/
theorem openNames_remove
    (methods : List MethodRecord)
    (name : String) :
    openNames (methods.filter fun record => record.name ≠ name) =
      (openNames methods).filter fun other => other ≠ name := by
  induction methods with
  | nil => rfl
  | cons first rest ih =>
      rw [List.filter_cons]
      split
      next hOther =>
        rw [openNames_cons, openNames_cons, ih]
        split
        next => rfl
        next => rw [List.filter_cons, if_pos hOther]
      next hSame =>
        rw [openNames_cons, ih]
        split
        next => rfl
        next => rw [List.filter_cons, if_neg hSame]

------------------------------------------------------------
-- Names Of Slots
------------------------------------------------------------

namespace SlotTable

/- The names of slots, in order. -/
def names
    (slots : Array MethodRecord) : List String :=
  slots.toList.map MethodRecord.name

theorem length_names
    (slots : Array MethodRecord) :
    (names slots).length = slots.size := by
  rw [names, List.length_map, Array.length_toList]

theorem getElem?_names
    (slots : Array MethodRecord)
    (slot : Nat) :
    (names slots)[slot]? = slots[slot]?.map MethodRecord.name := by
  rw [names, List.getElem?_map, Array.getElem?_toList]

/- Overriding a record by one of its name keeps the names. -/
theorem names_setIfInBounds
    {slots : Array MethodRecord}
    {slot : Nat}
    {record : MethodRecord}
    (hHere : (names slots)[slot]? = some record.name) :
    names (slots.setIfInBounds slot record) = names slots := by
  rcases List.getElem?_eq_some_iff.mp hHere with ⟨hBound, hName⟩
  rw [names, Array.toList_setIfInBounds, List.map_set, ← names,
    ← hName, List.set_getElem_self]

theorem names_push
    (slots : Array MethodRecord)
    (record : MethodRecord) :
    names (slots.push record) = names slots ++ [record.name] := by
  simp [names]

namespace Indexes

variable {table : SlotTable} {name : String} {slot : Nat}

/- The slot of a name in the index is its place among the names. -/
theorem slotOf?_eq_some_iff
    (hIndexes : table.Indexes) :
    table.slotOf? name = some slot ↔
      (names table.slots)[slot]? = some name := by
  rw [getElem?_names]
  constructor
  · intro hSlot
    rcases hIndexes.holds name slot hSlot with
      ⟨record, hHeld, hName, _⟩
    have hHeld : table.slots[slot]? = some record := hHeld
    rw [hHeld, Option.map_some, hName]
  · intro hName
    rcases Option.map_eq_some_iff.mp hName with
      ⟨record, hRecord, rfl⟩
    have hBound := (Array.getElem?_eq_some_iff.mp hRecord).1
    rcases hIndexes.one slot hBound with ⟨other, hSlot, _⟩
    rcases hIndexes.holds other slot hSlot with
      ⟨held, hHeld, hSame, _⟩
    have hHeld : table.slots[slot]? = some held := hHeld
    rw [hRecord] at hHeld
    cases hHeld
    rw [hSame]
    exact hSlot

/- The names in the index are those of the slots. -/
theorem mem_names_iff
    (hIndexes : table.Indexes) :
    name ∈ names table.slots ↔
      ∃ slot, table.slotOf? name = some slot := by
  rw [List.mem_iff_getElem?]
  exact exists_congr fun slot => hIndexes.slotOf?_eq_some_iff.symm

/- Placing a method adds its name, unless it is there already. -/
theorem names_place
    (hIndexes : table.Indexes)
    (record : MethodRecord) :
    names (table.place record).slots =
      if record.visibility = .owner ∨
          record.name ∈ names table.slots then
        names table.slots
      else
        names table.slots ++ [record.name] := by
  by_cases hPrivate : record.visibility = .owner
  · rw [place_of_private hPrivate, if_pos (Or.inl hPrivate)]
  · cases hSlot : table.slotOf? record.name with
    | some slot =>
        have hThere := hIndexes.mem_names_iff.mpr ⟨slot, hSlot⟩
        have hHere := hIndexes.slotOf?_eq_some_iff.mp hSlot
        rw [place_of_slot hPrivate hSlot, if_pos (Or.inr hThere)]
        exact names_setIfInBounds hHere
    | none =>
        have hNew : record.name ∉ names table.slots := by
          rw [hIndexes.mem_names_iff, hSlot]
          simp
        rw [place_of_new hPrivate hSlot,
          if_neg (not_or.mpr ⟨hPrivate, hNew⟩)]
        exact names_push table.slots record

/-
  Placing the methods of a class adds its open names that are not
  there already, in their order.
-/
theorem names_extend
    (hIndexes : table.Indexes)
    {methods : List MethodRecord}
    (hDistinct : (methods.map MethodRecord.name).Nodup) :
    names (table.extend methods).slots =
      names table.slots ++
        (openNames methods).filter fun name =>
          name ∉ names table.slots := by
  induction methods generalizing table with
  | nil => simp [SlotTable.extend, openNames]
  | cons first rest ih =>
      rw [List.map_cons, List.nodup_cons] at hDistinct
      rw [SlotTable.extend, List.foldl_cons, ← SlotTable.extend,
        ih (hIndexes.place first) hDistinct.2,
        hIndexes.names_place, openNames_cons]
      by_cases hPrivate : first.visibility = .owner
      · simp [hPrivate]
      · by_cases hThere : first.name ∈ names table.slots
        · simp [hPrivate, hThere]
        · have hOnce : first.name ∉ openNames rest :=
            fun hOpen => hDistinct.1 (mem_names_of_open hOpen)
          have hRest :
              ((openNames rest).filter fun name =>
                  name ∉ names table.slots ++ [first.name]) =
                (openNames rest).filter fun name =>
                  name ∉ names table.slots := by
            apply List.filter_congr
            intro name hMem
            have hOther : name ≠ first.name :=
              fun h => hOnce (h ▸ hMem)
            simp [hOther]
          rw [if_neg (not_or.mpr ⟨hPrivate, hThere⟩), hRest,
            if_neg hPrivate, List.filter_cons,
            if_pos (decide_eq_true hThere), List.append_assoc]
          rfl

end Indexes

end SlotTable

namespace Heap

/- The names of the slots along a lineage, in order. -/
def slotNames
    (heap : Heap)
    (ids : List ClassId) : List String :=
  SlotTable.names (heap.slotsOf ids).slots

/- The slots of the parent come first. -/
theorem WellFormed.slotNames_cons
    {heap : Heap}
    (hHeap : heap.WellFormed)
    (id : ClassId)
    (ancestors : List ClassId) :
    heap.slotNames (id :: ancestors) =
      heap.slotNames ancestors ++
        (openNames (heap.methods id)).filter fun name =>
          name ∉ heap.slotNames ancestors :=
  (heap.indexes_slotsOf ancestors).names_extend
    (nodup_methods hHeap id)

/- The slot names of the parent of a class. -/
def inheritedNames
    (heap : Heap)
    (id : ClassId) : List String :=
  heap.slotNames (heap.lineage id).tail

end Heap

------------------------------------------------------------
-- Changes That Keep Slots
------------------------------------------------------------

/-
  Steps that leave the slots of a class where they are. A change of
  members does so if it is made to no class of the lineage, if the
  name has a slot from further up, or if the name is open after the
  change just as it was before. A name that the class itself
  declares for the first time comes last.
-/
def HeapStep.KeepsSlots
    (heap : Heap)
    (cls : ClassId) : HeapStep → Prop
  | .define id name visibility _ =>
    id ∈ heap.lineage cls →
      name ∈ heap.inheritedNames id ∨
        (name ∈ openNames (heap.methods id) ↔
          visibility ≠ .owner) ∨
        id = cls ∧ name ∉ (heap.methods id).map MethodRecord.name
  | .remove id name =>
    id ∈ heap.lineage cls →
      name ∈ heap.inheritedNames id ∨
        name ∉ openNames (heap.methods id)
  | _ => True

instance HeapStep.decidableKeepsSlots
    (heap : Heap)
    (cls : ClassId) :
    (step : HeapStep) → Decidable (step.KeepsSlots heap cls)
  | .define id name visibility _ =>
    inferInstanceAs
      (Decidable
        (id ∈ heap.lineage cls →
          name ∈ heap.inheritedNames id ∨
            (name ∈ openNames (heap.methods id) ↔
              visibility ≠ .owner) ∨
            id = cls ∧
              name ∉ (heap.methods id).map MethodRecord.name))
  | .remove id name =>
    inferInstanceAs
      (Decidable
        (id ∈ heap.lineage cls →
          name ∈ heap.inheritedNames id ∨
            name ∉ openNames (heap.methods id)))
  | .newClass .. | .newObject | .defineStatic .. | .buildTable _
  | .lookUp .. => .isTrue trivial

namespace Heap

/- Each step leaves the slots of a class, when it is taken. -/
def KeepsSlots
    (heap : Heap)
    (cls : ClassId) : List HeapStep → Prop
  | [] => True
  | step :: rest =>
    step.KeepsSlots heap cls ∧ (heap.step step).KeepsSlots cls rest

instance decidableKeepsSlots
    (cls : ClassId) :
    (heap : Heap) → (steps : List HeapStep) →
      Decidable (heap.KeepsSlots cls steps)
  | _, [] => .isTrue trivial
  | heap, step :: rest =>
    have := decidableKeepsSlots cls (heap.step step) rest
    inferInstanceAs
      (Decidable
        (step.KeepsSlots heap cls ∧
          (heap.step step).KeepsSlots cls rest))

section Methods

variable {heap heap' : Heap} {id : ClassId}

/- Slots are built from methods only. -/
theorem slotsOf_of_methods
    {ids : List ClassId}
    (hMethods :
      ∀ other ∈ ids, heap'.methods other = heap.methods other) :
    heap'.slotsOf ids = heap.slotsOf ids := by
  induction ids with
  | nil => rfl
  | cons first rest ih =>
      rw [slotsOf, slotsOf, hMethods first List.mem_cons_self,
        ih fun other hMem =>
          hMethods other (List.mem_cons_of_mem _ hMem)]

/- No class is its own ancestor. -/
theorem WellFormed.notMem_tail_lineage
    (hHeap : heap.WellFormed)
    (id : ClassId) :
    id ∉ (heap.lineage id).tail := by
  intro hMem
  cases hClass : heap.class? id with
  | none =>
      rw [lineage_of_class?_none hClass] at hMem
      cases hMem
  | some c =>
      rcases hHeap.lineage_eq_cons hClass with
        ⟨parent, _, hLineage⟩
      rw [hLineage] at hMem
      have hLonger := (hHeap.lineage_suffix hMem).length_le
      rw [hLineage, List.length_cons] at hLonger
      omega

/-
  A change of the methods of one class shows in its own slot names
  only through the names that it does not inherit.
-/
theorem WellFormed.slotNames_of_changed
    (hHeap : heap.WellFormed)
    (hHeap' : heap'.WellFormed)
    {c : Class}
    (hClass : heap.class? id = some c)
    (hOthers :
      ∀ other, other ≠ id →
        heap'.methods other = heap.methods other) :
    heap'.slotNames (heap.lineage id) =
      heap.inheritedNames id ++
        (openNames (heap'.methods id)).filter fun name =>
          name ∉ heap.inheritedNames id := by
  have hAbove :
      heap'.slotsOf (heap.lineage id).tail =
        heap.slotsOf (heap.lineage id).tail := by
    apply slotsOf_of_methods
    intro other hMem
    apply hOthers
    rintro rfl
    exact hHeap.notMem_tail_lineage other hMem
  rcases hHeap.lineage_eq_cons hClass with ⟨parent, _, hLineage⟩
  unfold inheritedNames slotNames
  rw [← hAbove, hLineage]
  exact hHeap'.slotNames_cons id (heap.lineage parent)

/-
  If a class has the slot names that it had, then so has every
  other class: what it places after them is the same.
-/
theorem WellFormed.slotNames_below
    (hHeap : heap.WellFormed)
    (hHeap' : heap'.WellFormed)
    (hOthers :
      ∀ other, other ≠ id →
        heap'.methods other = heap.methods other)
    (hHere :
      heap'.slotNames (heap.lineage id) =
        heap.slotNames (heap.lineage id))
    (cls : ClassId) :
    heap'.slotNames (heap.lineage cls) =
      heap.slotNames (heap.lineage cls) := by
  induction cls using hHeap.lineage_induction with
  | hNone cls hClass =>
      rw [lineage_of_class?_none hClass]
      rfl
  | hSome cls c parent hClass hLineage ih =>
      by_cases hSame : cls = id
      · rw [hSame, hHere]
      · rw [hLineage, hHeap.slotNames_cons,
          hHeap'.slotNames_cons, ih, hOthers cls hSame]

end Methods

------------------------------------------------------------
-- Steps
------------------------------------------------------------

theorem methods_modifyMembers
    {heap : Heap}
    {id : ClassId}
    {c : Class}
    (hClass : heap.class? id = some c)
    (change : Class → Class)
    (other : ClassId) :
    (heap.modifyMembers id change).methods other =
      if other = id then (change c).methods
      else heap.methods other := by
  unfold methods
  rw [class?_modifyMembers hClass]
  split <;> simp

/-
  A change of members keeps the slot names of a class, perhaps with
  more of them after the old ones, if the open names that are not
  inherited stay, or if the class itself opens more at the end.
-/
theorem WellFormed.prefix_modifyMembers
    {heap : Heap}
    (hHeap : heap.WellFormed)
    {id : ClassId}
    {c : Class}
    (hClass : heap.class? id = some c)
    {change : Class → Class}
    (hChange : Class.KeepsIdentity change)
    {cls : ClassId}
    (hKeeps :
      id ∈ heap.lineage cls →
        ((openNames (change c).methods).filter fun name =>
            name ∉ heap.inheritedNames id) =
          ((openNames c.methods).filter fun name =>
            name ∉ heap.inheritedNames id) ∨
        id = cls ∧ openNames c.methods <+:
          openNames (change c).methods) :
    heap.slotNames (heap.lineage cls) <+:
      (heap.modifyMembers id change).slotNames
        (heap.lineage cls) := by
  have hHeap' := hHeap.modifyMembers id hChange
  have hMethods := methods_modifyMembers hClass change
  have hOthers :
      ∀ other, other ≠ id →
        (heap.modifyMembers id change).methods other =
          heap.methods other := by
    intro other hOther
    rw [hMethods, if_neg hOther]
  have hOld :=
    hHeap.slotNames_of_changed hHeap hClass fun _ _ => rfl
  have hNew :=
    hHeap.slotNames_of_changed hHeap' hClass hOthers
  have hDeclared : heap.methods id = c.methods := by
    simp [methods, hClass]
  rw [hDeclared] at hOld
  rw [hMethods, if_pos rfl] at hNew
  by_cases hMem : id ∈ heap.lineage cls
  · rcases hKeeps hMem with hSame | ⟨rfl, hMore⟩
    · rw [hSame, ← hOld] at hNew
      rw [hHeap.slotNames_below hHeap' hOthers hNew]
    · rw [hOld, hNew]
      exact (List.prefix_append_right_inj _).mpr
        (hMore.filter _)
  · have hSlots :
        (heap.modifyMembers id change).slotsOf
            (heap.lineage cls) =
          heap.slotsOf (heap.lineage cls) := by
      apply slotsOf_of_methods
      intro other hOther
      apply hOthers
      rintro rfl
      exact hMem hOther
    unfold slotNames
    rw [hSlots]

/- The slot names of a class. -/
theorem slotNames_lineage
    (heap : Heap)
    (cls : ClassId) :
    heap.slotNames (heap.lineage cls) =
      SlotTable.names (heap.builtTable cls).slots :=
  rfl

/- A class that looks the same has the same slot names. -/
theorem SameLayout.slotNames
    {heap heap' : Heap}
    {cls : ClassId}
    (hSame : SameLayout heap heap' cls) :
    heap'.slotNames (heap'.lineage cls) =
      heap.slotNames (heap.lineage cls) := by
  rw [slotNames_lineage, slotNames_lineage, hSame.builtTable]

section Step

variable {heap : Heap} {cls : ClassId}

/- Declaring a method under the conditions that keep slots. -/
theorem WellFormed.prefix_define
    (hHeap : heap.WellFormed)
    (id : ClassId)
    (name : String)
    (visibility : Visibility)
    (body : Option Callable)
    (hKeeps :
      HeapStep.KeepsSlots heap cls
        (.define id name visibility body)) :
    heap.slotNames (heap.lineage cls) <+:
      (heap.defineMethod id name visibility body).slotNames
        (heap.lineage cls) := by
  unfold defineMethod
  cases hClass : heap.class? id with
  | none =>
      rw [modifyMembers_of_none hClass]
  | some c =>
      have hDeclared : heap.methods id = c.methods := by
        simp [methods, hClass]
      apply hHeap.prefix_modifyMembers hClass
        (Class.keepsIdentity_insertMethod name visibility body)
      intro hMem
      unfold Class.insertMethod
      dsimp only
      rcases hKeeps hMem with hAbove | hSame | ⟨rfl, hNew⟩
      · left
        apply filter_openNames_putMethod
        simpa using hAbove
      · left
        rw [hDeclared] at hSame
        rw [openNames_putMethod_of_iff
          (hHeap.distinct id c hClass) hSame]
      · right
        rw [hDeclared] at hNew
        refine ⟨rfl, ?_⟩
        rw [putMethod_of_new hNew, openNames_append]
        exact List.prefix_append _ _

/- Removing a method under the conditions that keep slots. -/
theorem WellFormed.prefix_remove
    (hHeap : heap.WellFormed)
    (id : ClassId)
    (name : String)
    (hKeeps :
      HeapStep.KeepsSlots heap cls (.remove id name)) :
    heap.slotNames (heap.lineage cls) <+:
      (heap.removeMethod id name).2.slotNames
        (heap.lineage cls) := by
  by_cases hThere :
      name ∈ (heap.methods id).map MethodRecord.name
  · rw [removeMethod_of_declared hThere]
    cases hClass : heap.class? id with
    | none =>
        rw [modifyMembers_of_none hClass]
    | some c =>
        have hDeclared : heap.methods id = c.methods := by
          simp [methods, hClass]
        apply hHeap.prefix_modifyMembers hClass
          (Class.keepsIdentity_removeMethod name)
        intro hMem
        left
        unfold Class.removeMethod
        dsimp only
        rw [openNames_remove, List.filter_filter]
        apply List.filter_congr
        intro other hOpen
        rcases hKeeps hMem with hAbove | hHidden
        · by_cases hName : other = name <;>
            simp [hName, hAbove]
        · have hOther : other ≠ name := by
            rintro rfl
            exact hHidden (hDeclared ▸ hOpen)
          simp [hOther]
  · rw [removeMethod_of_absent hThere]

/- Class-scope members have no slots. -/
theorem WellFormed.prefix_defineStatic
    (hHeap : heap.WellFormed)
    (id : ClassId)
    (name : String)
    (body : Callable) :
    heap.slotNames (heap.lineage cls) <+:
      (heap.defineStatic id name body).slotNames
        (heap.lineage cls) := by
  unfold defineStatic
  cases hClass : heap.class? id with
  | none =>
      rw [modifyMembers_of_none hClass]
  | some c =>
      apply hHeap.prefix_modifyMembers hClass
        (Class.keepsIdentity_insertStatic name body)
      intro _
      exact Or.inl rfl

/- The lineage of a class that is there never changes. -/
theorem lineage_modifyMembers_eq
    (id : ClassId)
    {change : Class → Class}
    (hChange : Class.KeepsIdentity change)
    (other : ClassId) :
    (heap.modifyMembers id change).lineage other =
      heap.lineage other := by
  cases hClass : heap.class? id with
  | none => rw [modifyMembers_of_none hClass]
  | some c => exact lineage_modifyMembers hClass hChange other

/- A step that keeps slots adds names at the end at most. -/
theorem Coherent.prefix_step
    (hHeap : heap.Coherent)
    (step : HeapStep)
    (hKeeps : step.KeepsSlots heap cls) :
    heap.slotNames (heap.lineage cls) <+:
      (heap.step step).slotNames
        ((heap.step step).lineage cls) := by
  have hWellFormed := hHeap.wellFormed
  cases step with
  | newClass name parent =>
      cases hClass : heap.class? cls with
      | none =>
          rw [lineage_of_class?_none hClass]
          exact List.nil_prefix
      | some c =>
          have hSame :=
            hWellFormed.sameLayout_newClass name parent hClass
          rw [Heap.step, hSame.slotNames]
  | newObject =>
      have hSame : SameLayout heap (heap.step .newObject) cls :=
        .of_class? fun _ _ => rfl
      rw [hSame.slotNames]
  | define id name visibility body =>
      have hLineage :=
        heap.lineage_modifyMembers_eq id
          (Class.keepsIdentity_insertMethod name visibility body)
          cls
      rw [Heap.step, defineMethod, hLineage, ← defineMethod]
      exact hWellFormed.prefix_define id name visibility body
        hKeeps
  | defineStatic id name body =>
      have hLineage :=
        heap.lineage_modifyMembers_eq id
          (Class.keepsIdentity_insertStatic name body) cls
      rw [Heap.step, Heap.defineStatic, hLineage,
        ← Heap.defineStatic]
      exact hWellFormed.prefix_defineStatic id name body
  | remove id name =>
      have hLineage :
          (heap.removeMethod id name).2.lineage cls =
            heap.lineage cls := by
        by_cases hThere :
            name ∈ (heap.methods id).map MethodRecord.name
        · rw [removeMethod_of_declared hThere]
          exact heap.lineage_modifyMembers_eq id
            (Class.keepsIdentity_removeMethod name) cls
        · rw [removeMethod_of_absent hThere]
      rw [Heap.step, hLineage]
      exact hWellFormed.prefix_remove id name hKeeps
  | buildTable id =>
      have hSame :=
        SameLayout.of_bare_eq (heap.bare_slotTable id) cls
      rw [Heap.step, hSame.slotNames]
  | lookUp id name =>
      have hSame :=
        SameLayout.of_bare_eq (heap.bare_resolve id name) cls
      rw [Heap.step, hSame.slotNames]

/- So does a run of such steps. -/
theorem Coherent.prefix_run
    (hHeap : heap.Coherent)
    {steps : List HeapStep}
    (hKeeps : heap.KeepsSlots cls steps) :
    heap.slotNames (heap.lineage cls) <+:
      (heap.run steps).slotNames
        ((heap.run steps).lineage cls) := by
  induction steps generalizing heap with
  | nil => exact List.prefix_rfl
  | cons first rest ih =>
      have hFirst := hHeap.prefix_step first hKeeps.1
      have hRest := ih (hHeap.step first).1 hKeeps.2
      exact hFirst.trans hRest

/- A name keeps its slot over such a run. -/
theorem Coherent.slotOf?_run
    (hHeap : heap.Coherent)
    {steps : List HeapStep}
    (hKeeps : heap.KeepsSlots cls steps)
    {name : String}
    {slot : Nat}
    (hSlot : (heap.builtTable cls).slotOf? name = some slot) :
    ((heap.run steps).builtTable cls).slotOf? name =
      some slot := by
  rcases hHeap.prefix_run hKeeps with ⟨more, hNames⟩
  rw [slotNames_lineage, slotNames_lineage] at hNames
  rw [(heap.indexes_builtTable cls).slotOf?_eq_some_iff] at hSlot
  rw [((heap.run steps).indexes_builtTable
    cls).slotOf?_eq_some_iff, ← hNames]
  have hBound := (List.getElem?_eq_some_iff.mp hSlot).1
  rw [List.getElem?_append_left hBound, hSlot]

end Step

end Heap

end RegisterVM
