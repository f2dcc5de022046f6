import RegisterVM.Proofs.Object.SlotNames

/-
  The methods of a class as two parts: a table of records by name,
  and the order in which the names were declared. Declaring a name
  anew changes its record only, a new name comes last, and removing
  a name takes it out of both parts. Whatever happens to a heap,
  the two parts of a class fit, and they are what the steps that
  concern the class have made of them since its creation.

  Key definitions include:
    * `Members`
    * `Members.Consistent`
    * `Members.step`
    * `Members.replay`
    * `Heap.members`

  Key theorems include:
    * `Members.Consistent.replay`
    * `Members.order_remove_insert`
    * `Members.ofMethods_putMethod`
    * `Heap.WellFormed.members_step`
    * `Heap.members_run`
-/

namespace RegisterVM

------------------------------------------------------------
-- Tables With An Order
------------------------------------------------------------

/- The records of a class by name, and the order of the names. -/
@[ext]
structure Members where
  table : String → Option MethodRecord := fun _ => none
  order : List String := []

namespace Members

variable {m : Members} {record : MethodRecord} {name : String}

/- Put a record under its name, which comes last if it is new. -/
def insert
    (m : Members)
    (record : MethodRecord) : Members where
  table name :=
    if name = record.name then some record else m.table name
  order :=
    if (m.table record.name).isSome then m.order
    else m.order ++ [record.name]

/- Remove a name, if it is there. -/
def remove
    (m : Members)
    (name : String) : Members :=
  if (m.table name).isSome then
    { table := fun other =>
        if other = name then none else m.table other
      order := m.order.filter fun other => other ≠ name }
  else
    m

/- The names that are not private, in order. -/
def opened
    (m : Members) : List String :=
  m.order.filter fun name =>
    (m.table name).any fun record => record.visibility ≠ .owner

/-
  A table and an order that fit: the order lists the names of the
  table, each of them once, and every record has its own name.
-/
structure Consistent
    (m : Members) : Prop where
  nodup : m.order.Nodup
  listed : ∀ name, name ∈ m.order ↔ (m.table name).isSome
  named :
    ∀ name record, m.table name = some record →
      record.name = name

theorem consistent_empty :
    Consistent {} where
  nodup := List.nodup_nil
  listed _ := iff_of_false List.not_mem_nil nofun
  named _ _ := nofun

/- Declaring a name anew keeps all places. -/
theorem order_insert_of_declared
    (hDeclared : (m.table record.name).isSome) :
    (m.insert record).order = m.order :=
  if_pos hDeclared

theorem order_insert_of_new
    (hNew : m.table record.name = none) :
    (m.insert record).order = m.order ++ [record.name] := by
  rw [insert, hNew]
  rfl

/- A name that is removed and declared again moves to the end. -/
theorem order_remove_insert
    (hDeclared : (m.table record.name).isSome) :
    ((m.remove record.name).insert record).order =
      (m.order.filter fun other => other ≠ record.name) ++
        [record.name] := by
  have hRemoved : (m.remove record.name).table record.name = none := by
    rw [remove, if_pos hDeclared]
    exact if_pos rfl
  rw [order_insert_of_new hRemoved, remove, if_pos hDeclared]

namespace Consistent

theorem insert
    (hMembers : m.Consistent)
    (record : MethodRecord) :
    (m.insert record).Consistent where
  nodup := by
    by_cases hDeclared : (m.table record.name).isSome
    · rw [order_insert_of_declared hDeclared]
      exact hMembers.nodup
    · have hNew : record.name ∉ m.order :=
        fun hMem => hDeclared ((hMembers.listed _).mp hMem)
      rw [order_insert_of_new (by simpa using hDeclared)]
      exact List.nodup_append.mpr
        ⟨hMembers.nodup, by simp,
          fun name hMem last hLast hSame =>
            hNew (List.mem_singleton.mp hLast ▸ hSame ▸ hMem)⟩
  listed name := by
    have hListed := hMembers.listed name
    unfold Members.insert
    by_cases hSame : name = record.name
    · subst hSame
      by_cases hDeclared : (m.table record.name).isSome
      · simp [hDeclared, hListed]
      · simp [hDeclared]
    · by_cases hDeclared : (m.table record.name).isSome <;>
        simp [hDeclared, hSame, hListed]
  named name found hFound := by
    unfold Members.insert at hFound
    dsimp only at hFound
    split at hFound
    next hSame =>
      cases hFound
      exact hSame.symm
    next => exact hMembers.named name found hFound

theorem remove
    (hMembers : m.Consistent)
    (name : String) :
    (m.remove name).Consistent := by
  unfold Members.remove
  split
  next =>
    exact
      { nodup := hMembers.nodup.filter _
        listed := by
          intro other
          by_cases hSame : other = name <;>
            simp [hSame, hMembers.listed]
        named := by
          intro other found hFound
          dsimp only at hFound
          split at hFound
          next => cases hFound
          next => exact hMembers.named other found hFound }
  next => exact hMembers

end Consistent

------------------------------------------------------------
-- Histories Of Members
------------------------------------------------------------

/- What a step does to the members of one class. -/
def step
    (cls : ClassId)
    (m : Members) : HeapStep → Members
  | .define id name visibility body =>
    if id = cls then m.insert ⟨name, visibility, cls, body⟩ else m
  | .remove id name => if id = cls then m.remove name else m
  | .newClass .. | .newObject | .defineStatic .. | .buildTable _
  | .lookUp .. => m

/- What some steps do to the members of one class. -/
def replay
    (cls : ClassId)
    (m : Members)
    (steps : List HeapStep) : Members :=
  steps.foldl (step cls) m

namespace Consistent

theorem step
    (hMembers : m.Consistent)
    (cls : ClassId)
    (step : HeapStep) :
    (m.step cls step).Consistent := by
  cases step with
  | define id name visibility body =>
      rw [Members.step]
      split
      next => exact hMembers.insert _
      next => exact hMembers
  | remove id name =>
      rw [Members.step]
      split
      next => exact hMembers.remove name
      next => exact hMembers
  | newClass | newObject | defineStatic | buildTable | lookUp =>
      exact hMembers

theorem replay
    (hMembers : m.Consistent)
    (cls : ClassId)
    (steps : List HeapStep) :
    (m.replay cls steps).Consistent := by
  induction steps generalizing m with
  | nil => exact hMembers
  | cons first rest ih => exact ih (hMembers.step cls first)

end Consistent

------------------------------------------------------------
-- Members Of A List Of Methods
------------------------------------------------------------

/- The table and the order of methods that are kept in one list. -/
def ofMethods
    (methods : List MethodRecord) : Members where
  table := findMethod? methods
  order := methods.map MethodRecord.name

theorem findMethod?_cons
    (first : MethodRecord)
    (rest : List MethodRecord)
    (name : String) :
    findMethod? (first :: rest) name =
      if first.name = name then some first
      else findMethod? rest name := by
  by_cases hFirst : first.name = name <;>
    simp [findMethod?, hFirst]

theorem findMethod?_putMethod
    (methods : List MethodRecord)
    (record : MethodRecord)
    (name : String) :
    findMethod? (putMethod methods record) name =
      if name = record.name then some record
      else findMethod? methods name := by
  induction methods with
  | nil =>
      rw [putMethod, findMethod?_cons]
      exact if_congr eq_comm rfl rfl
  | cons first rest ih =>
      rw [putMethod, findMethod?_cons]
      by_cases hFirst : first.name = record.name
      · rw [if_pos hFirst, findMethod?_cons, hFirst]
        by_cases hSame : name = record.name
        · rw [if_pos hSame.symm, if_pos hSame]
        · rw [if_neg (Ne.symm hSame), if_neg hSame,
            if_neg (Ne.symm hSame)]
      · rw [if_neg hFirst, findMethod?_cons, ih]
        by_cases hSame : name = record.name
        · rw [if_pos hSame, if_pos hSame, hSame, if_neg hFirst]
        · rw [if_neg hSame, if_neg hSame]

/- Declaring a method in the list is putting it in both parts. -/
theorem ofMethods_putMethod
    (methods : List MethodRecord)
    (record : MethodRecord) :
    ofMethods (putMethod methods record) =
      (ofMethods methods).insert record := by
  apply Members.ext
  · funext name
    exact findMethod?_putMethod methods record name
  · simp only [ofMethods, insert, Heap.isSome_findMethod?,
      map_name_putMethod]

/- Removing a method from the list is removing it from both. -/
theorem ofMethods_remove
    {methods : List MethodRecord}
    (hDeclared : name ∈ methods.map MethodRecord.name) :
    ofMethods (methods.filter fun record => record.name ≠ name) =
      (ofMethods methods).remove name := by
  have hThere : ((ofMethods methods).table name).isSome :=
    (Heap.isSome_findMethod? methods name).mpr hDeclared
  unfold remove
  rw [if_pos hThere]
  apply Members.ext
  · funext other
    unfold ofMethods findMethod?
    dsimp only
    rw [List.find?_filter]
    by_cases hSame : other = name
    · rw [if_pos hSame]
      apply List.find?_eq_none.mpr
      intro record _
      simp [hSame]
    · rw [if_neg hSame]
      congr 1
      funext record
      by_cases hName : record.name = other <;>
        simp [hName, hSame]
  · simp only [ofMethods, List.filter_map]
    rfl

/- The open names, read off the two parts. -/
theorem opened_ofMethods
    {methods : List MethodRecord}
    (hDistinct : (methods.map MethodRecord.name).Nodup) :
    (ofMethods methods).opened = openNames methods := by
  unfold opened openNames ofMethods
  dsimp only
  rw [List.filter_map]
  congr 1
  apply List.filter_congr
  intro record hMem
  simp [Heap.findMethod?_of_mem hDistinct hMem]

end Members

------------------------------------------------------------
-- Members In A Heap
------------------------------------------------------------

namespace Heap

variable {heap : Heap} {cls : ClassId}

/- The members of a class. -/
def members
    (heap : Heap)
    (cls : ClassId) : Members :=
  .ofMethods (heap.methods cls)

/- Members have no part in kept tables. -/
theorem members_of_bare_eq
    {heap' : Heap}
    (hBare : heap'.bare = heap.bare)
    (cls : ClassId) :
    heap'.members cls = heap.members cls := by
  rw [members, ← methods_bare, hBare, methods_bare, members]

theorem isSome_class?_of_bare_eq
    {heap' : Heap}
    (hBare : heap'.bare = heap.bare)
    (cls : ClassId) :
    (heap'.class? cls).isSome = (heap.class? cls).isSome := by
  have hSame := congrArg (fun h => (h.class? cls).isSome) hBare
  simpa using hSame

/- A change of members makes no class. -/
theorem isSome_class?_modifyMembers
    (heap : Heap)
    (id : ClassId)
    (change : Class → Class)
    (cls : ClassId) :
    ((heap.modifyMembers id change).class? cls).isSome =
      (heap.class? cls).isSome := by
  cases hClass : heap.class? id with
  | none => rw [modifyMembers_of_none hClass]
  | some c =>
      rw [class?_modifyMembers hClass]
      split
      next hSame =>
        rw [hSame, hClass]
        rfl
      next => rfl

/- Classes stay, and only the making of a class makes one. -/
theorem isSome_class?_step
    (heap : Heap)
    (step : HeapStep)
    (cls : ClassId) :
    ((heap.step step).class? cls).isSome ↔
      (heap.class? cls).isSome ∨
        ∃ name parent, step = .newClass name parent ∧
          cls = heap.classes.size + 1 := by
  cases step with
  | newClass name parent =>
      rw [Heap.step, class?_newClass]
      by_cases hNew : cls = heap.classes.size + 1
      · simp [hNew]
      · simp [hNew]
  | newObject =>
      simp only [reduceCtorEq, false_and, exists_false, or_false]
      rfl
  | define id name visibility body =>
      simp [Heap.step, defineMethod, isSome_class?_modifyMembers]
  | defineStatic id name body =>
      simp [Heap.step, Heap.defineStatic,
        isSome_class?_modifyMembers]
  | remove id name =>
      by_cases hThere :
          name ∈ (heap.methods id).map MethodRecord.name
      · simp [Heap.step, removeMethod_of_declared hThere,
          isSome_class?_modifyMembers]
      · simp [Heap.step, removeMethod_of_absent hThere]
  | buildTable id =>
      simp [Heap.step,
        isSome_class?_of_bare_eq (heap.bare_slotTable id)]
  | lookUp id name =>
      simp [Heap.step,
        isSome_class?_of_bare_eq (heap.bare_resolve id name)]

/- A change of members is seen in the members of its class. -/
theorem members_modifyMembers
    {c : Class}
    (hClass : heap.class? cls = some c)
    (id : ClassId)
    (change : Class → Class) :
    (heap.modifyMembers id change).members cls =
      if id = cls then .ofMethods (change c).methods
      else heap.members cls := by
  cases hOwner : heap.class? id with
  | none =>
      have hOther : id ≠ cls := by
        rintro rfl
        cases hOwner.symm.trans hClass
      rw [modifyMembers_of_none hOwner, if_neg hOther]
  | some d =>
      unfold members
      rw [methods_modifyMembers hOwner]
      by_cases hSame : id = cls
      · subst hSame
        cases hOwner.symm.trans hClass
        rw [if_pos rfl, if_pos rfl]
      · rw [if_neg (Ne.symm hSame), if_neg hSame]

/- A step does to a class what it does to its members. -/
theorem WellFormed.members_step
    (hHeap : heap.WellFormed)
    (hClass : (heap.class? cls).isSome)
    (step : HeapStep) :
    (heap.step step).members cls =
      (heap.members cls).step cls step := by
  rcases Option.isSome_iff_exists.mp hClass with ⟨c, hClass⟩
  have hMethods : heap.methods cls = c.methods := by
    rw [methods, hClass]
    rfl
  have hMembers : heap.members cls = .ofMethods c.methods :=
    congrArg Members.ofMethods hMethods
  cases step with
  | newClass name parent =>
      rw [Heap.step, members, methods,
        class?_newClass_of_some name parent hClass, Members.step,
        hMembers]
      rfl
  | newObject => rfl
  | define id name visibility body =>
      rw [Heap.step, defineMethod, Members.step,
        members_modifyMembers hClass]
      split
      next =>
        rw [Class.insertMethod, (hHeap.lineage cls c hClass).1,
          Members.ofMethods_putMethod, hMembers]
      next => rfl
  | defineStatic id name body =>
      rw [Heap.step, Heap.defineStatic, Members.step,
        members_modifyMembers hClass]
      split
      next => exact hMembers.symm
      next => rfl
  | remove id name =>
      rw [Heap.step, Members.step]
      by_cases hThere :
          name ∈ (heap.methods id).map MethodRecord.name
      · rw [removeMethod_of_declared hThere,
          members_modifyMembers hClass]
        split
        next hSame =>
          subst hSame
          rw [hMethods] at hThere
          rw [Class.removeMethod, Members.ofMethods_remove hThere,
            hMembers]
        next => rfl
      · rw [removeMethod_of_absent hThere]
        split
        next hSame =>
          subst hSame
          have hAbsent : ¬ ((heap.members id).table name).isSome :=
            fun hFound =>
              hThere ((isSome_findMethod? _ name).mp hFound)
          rw [Members.remove, if_neg hAbsent]
        next => rfl
  | buildTable id =>
      exact members_of_bare_eq (heap.bare_slotTable id) cls
  | lookUp id name =>
      exact members_of_bare_eq (heap.bare_resolve id name) cls

/- A new class has no members. -/
theorem members_newClass
    (heap : Heap)
    (name : String)
    (parent : Option ClassId) :
    (heap.newClass name parent).2.members
        (heap.classes.size + 1) = {} := by
  rw [members, methods, class?_newClass, if_pos rfl]
  rfl

/-
  After a run from the empty heap, the members of a class are what
  the steps since it was made have made of none.
-/
theorem members_run
    (steps : List HeapStep)
    (cls : ClassId)
    (hClass : ((run {} steps).class? cls).isSome) :
    ∃ before name parent after,
      steps = before ++ .newClass name parent :: after ∧
        cls = (run {} before).classes.size + 1 ∧
        (run {} steps).members cls =
          Members.replay cls {} after := by
  -- The last step either finds the class or is the one that makes it.
  induction steps using List.reverseRecOn with
  | nil =>
      cases cls <;> simp [run, class?_succ] at hClass
  | append_singleton steps last ih =>
      have hHeap := (coherent_empty.run steps).1.wellFormed
      have hRun :
          run {} (steps ++ [last]) = (run {} steps).step last :=
        List.foldl_concat _ _ _ _
      rw [hRun] at hClass ⊢
      cases hBefore : ((run {} steps).class? cls).isSome with
      | true =>
          rcases ih hBefore with
            ⟨before, name, parent, after, hSteps, hNew, hMembers⟩
          refine ⟨before, name, parent, after ++ [last], ?_, hNew, ?_⟩
          · rw [hSteps, List.append_assoc, List.cons_append]
          · rw [hHeap.members_step hBefore, hMembers,
              Members.replay, Members.replay, List.foldl_concat]
      | false =>
          rw [isSome_class?_step, hBefore] at hClass
          rcases hClass with hNot | ⟨name, parent, rfl, hNew⟩
          · cases hNot
          · refine ⟨steps, name, parent, [], rfl, hNew, ?_⟩
            rw [hNew]
            exact members_newClass _ name parent

end Heap

end RegisterVM
