import RegisterVM.Proofs.Workspace.Scripts

/-
  Caches do not show. Whatever a script has done before, the slot
  table of a class is the one that its declarations call for, and
  agrees with resolution by name; and no script can tell how its
  sites are tuned, since a call through a site is the call of its
  method by name.

  Key theorems include:
    * `Script.slotTable_holds_nearest`
    * `Script.tunings_invisible`
-/

namespace RegisterVM

namespace Script

------------------------------------------------------------
-- Slot Tables
------------------------------------------------------------

/-
  In every workspace that a script can reach, the slot table of a
  class has the current version; its names are those that the
  class or an ancestor declares and not privately; and each slot
  holds the nearest such declaration. So what resolution by name
  finds has no slot if it is private, and otherwise a slot that
  reads back the very same record, before and after resolution.
-/
theorem slotTable_holds_nearest
    (run : Runner)
    (discreet : Bool)
    (hRun : run.Native discreet)
    (script : Script)
    (tunings : SiteId → Tuning)
    (steps : Nat)
    (heap : Heap)
    (hHeap : heap = (script.run run tunings steps).2.world.heap)
    (cls : ClassId)
    (table : SlotTable)
    (hTable : table = (heap.slotTable cls).1) :
    table.version = heap.version cls ∧
      (∀ name,
        (table.slotOf? name).isSome ↔
          ∃ id ∈ heap.lineage cls, ∃ record ∈ heap.methods id,
            record.name = name ∧ record.visibility ≠ .owner) ∧
      (∀ name slot, table.slotOf? name = some slot →
        table.get? slot =
          heap.nearestOpen? (heap.lineage cls) name) ∧
      ∀ name resolved,
        (heap.resolve cls name).1 = some resolved →
        if resolved.record.visibility = .owner then
          resolved.slot = none
        else
          ∃ slot, resolved.slot = some slot ∧
            table.get? slot = some resolved.record ∧
            ((heap.resolve cls name).2.slotTable cls).1.get? slot =
              some resolved.record := by
  have hCoherent : heap.Coherent := by
    rw [hHeap]
    exact (coherent_run hRun script tunings steps {}).heap
  have hWellFormed := hCoherent.wellFormed
  have hBuilt : table = heap.builtTable cls := by
    rw [hTable, (hCoherent.slotTable cls).1]
  have hIndexes : table.Indexes := by
    rw [hBuilt]
    exact heap.indexes_builtTable cls
  have hHeld :
      ∀ name,
        table.held? name =
          heap.nearestOpen? (heap.lineage cls) name := by
    intro name
    rw [hBuilt]
    exact Heap.held?_builtTable hWellFormed cls name
  refine ⟨?_, ?_, ?_, ?_⟩
  · rw [hBuilt]
    rfl
  · intro name
    rw [hIndexes.slotOf?_isSome, hHeld]
    exact Heap.nearestOpen?_isSome hWellFormed _ name
  · intro name slot hSlot
    rw [SlotTable.get?_of_slotOf? hSlot, hHeld]
  · intro name resolved hResolved
    have hAfter := hCoherent.resolve cls name
    have hSame :=
      Heap.SameLayout.of_bare_eq (heap.bare_resolve cls name) cls
    rw [(hAfter.2.slotTable cls).1, hSame.builtTable, hBuilt]
    rw [hAfter.1] at hResolved
    have hSlot := hWellFormed.slot_of_found? hResolved
    split at hSlot
    next hPrivate =>
      rw [if_pos hPrivate]
      exact hSlot
    next hOpen =>
      rw [if_neg hOpen]
      rcases hSlot with ⟨slot, hIndex, hRead⟩
      exact ⟨slot, hIndex, hRead, hRead⟩

/-
  A child that hides a method of its parent behind a private one:
  the slot goes on holding the method of the parent, while what
  resolution finds is private and has no slot.
-/
theorem slotTable_holds_nearest_of_hidden :
    let script : Script := fun moments =>
      match moments.length with
      | 0 => .newClass "Parent" "Parent" none
      | 1 => .newClass "Child" "Child" (some 1)
      | 2 => .define 1 "greet" .everyone none
      | 3 => .table 2
      | _ => .define 2 "greet" .owner none
    let heap :=
      (script.run (Callable.call 1) (fun _ => {}) 5).2.world.heap
    let table := (heap.slotTable 2).1
    Runner.Native (Callable.call 1) false ∧
      table.version = heap.version 2 ∧
      (table.slotOf? "greet" = some 0 ∧
        table.get? 0 =
          heap.nearestOpen? (heap.lineage 2) "greet") ∧
      ∃ resolved,
        (heap.resolve 2 "greet").1 = some resolved ∧
          resolved.record.declaring = 2 ∧ resolved.slot = none := by
  intro script heap table
  have hNative : Runner.Native (Callable.call 1) false :=
    Callable.native_call 1
  have hHolds :=
    slotTable_holds_nearest (Callable.call 1) false hNative script
      (fun _ => {}) 5 heap rfl 2 table rfl
  have hSlot : table.slotOf? "greet" = some 0 := by
    decide +kernel
  have hPrivate :
      ((heap.resolve 2 "greet").1.map fun resolved =>
          (resolved.record.visibility,
            resolved.record.declaring)) =
        some (.owner, 2) := by
    decide +kernel
  rcases Option.map_eq_some_iff.mp hPrivate with
    ⟨resolved, hResolved, hRecord⟩
  have hFound := hHolds.2.2.2 "greet" resolved hResolved
  rw [Prod.mk.injEq] at hRecord
  rw [if_pos hRecord.1] at hFound
  exact ⟨hNative, hHolds.1,
    ⟨hSlot, hHolds.2.2.1 "greet" 0 hSlot⟩,
    resolved, hResolved, hRecord.2, hFound⟩

------------------------------------------------------------
-- Call Sites
------------------------------------------------------------

/-
  No script can tell how its sites are tuned: at every step it
  gets the same reply and sees the same members, versions,
  callers and messages. And in every workspace that it can reach,
  a call through a site ends as the call of its method by name.
-/
theorem tunings_invisible
    (run : Runner)
    (hRun : run.Native true)
    (script : Script)
    (tunings₁ tunings₂ : SiteId → Tuning)
    (steps : Nat)
    (w : Workspace)
    (hWorkspace : w = (script.run run tunings₁ steps).2) :
    (script.run run tunings₁ steps).1 =
        (script.run run tunings₂ steps).1 ∧
      ∀ (context : String) (id : SiteId) (site : Site)
        (receiver : Value) (args : List Value),
        w.world.sites[id]? = some site →
        let bySite :=
          (Session.act context
            (invokeSite run id receiver args)).run w
        let byName :=
          (Session.act context
            (invokeMethod run receiver site.name args)).run w
        bySite.1 = byName.1 ∧ bySite.2.view = byName.2.view := by
  have hSteady : Action.Steady run :=
    fun callable receiver args =>
      (hRun callable receiver args).similar
  have hSame := same_run hRun script tunings₁ tunings₂ steps
  refine ⟨hSame.result, ?_⟩
  intro context id site receiver args hSite
  have hCoherent : w.Coherent := by
    rw [hWorkspace]
    exact hSame.workspace.left
  have hAgree :=
    invokeSite_agree hSteady
      (hCoherent (w.context context).context) hSite receiver args
  have hEnds := Session.same_act hCoherent.alike hAgree
  exact ⟨hEnds.result, hEnds.workspace.view⟩

/-
  A method that declares itself anew while it runs, called three
  times through a site: without a cache and with one, whose last
  call is a hit.
-/
theorem tunings_invisible_of_redefinition :
    let body : Body :=
      .andThen
        (.define "Box" "next" .everyone "later"
          (.const (.int 2)))
        (.const (.int 1))
    let script : Script := fun moments =>
      match moments.length with
      | 0 => .newClass "Box" "Box" none
      | 1 => .define 1 "next" .everyone (some ⟨0, "first", body⟩)
      | 2 => .newSite "site" "next"
      | _ => .site "main" 0 (.inst ⟨1, 1⟩) []
    let run := Callable.call 3
    let w := (script.run run (fun _ => {}) 6).2
    Runner.Native run true ∧
      (script.run run (fun _ => {}) 6).1 =
        (script.run run (fun _ => .disabled) 6).1 ∧
      (w.world.sites[0]?.map fun site => site.state.stats.hits) =
        some 1 ∧
      ((Session.act "main"
            (invokeSite run 0 (.inst ⟨1, 1⟩) [])).run w).1 =
        ((Session.act "main"
            (invokeMethod run (.inst ⟨1, 1⟩) "next" [])).run
              w).1 := by
  intro body script run w
  have hNative : Runner.Native run true := Callable.native_call 3
  have hHits :
      (w.world.sites[0]?.map fun site =>
          (site.name, site.state.stats.hits)) =
        some ("next", 1) := by
    decide +kernel
  rcases Option.map_eq_some_iff.mp hHits with
    ⟨site, hSite, hShape⟩
  rw [Prod.mk.injEq] at hShape
  have hInvisible :=
    tunings_invisible run hNative script (fun _ => {})
      (fun _ => .disabled) 6 w rfl
  have hEnds :=
    hInvisible.2 "main" 0 site (.inst ⟨1, 1⟩) [] hSite
  rw [hShape.1] at hEnds
  refine ⟨hNative, hInvisible.1, ?_, hEnds.1⟩
  rw [hSite]
  exact congrArg some hShape.2

end Script

end RegisterVM
