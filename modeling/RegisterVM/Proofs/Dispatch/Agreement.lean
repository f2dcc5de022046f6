import RegisterVM.Proofs.Dispatch.Outline

/-
  Calls through a site agree with calls by name. Whatever a
  coherent site remembers, a call through it ends as the call of
  its method by name does: the route that it finds or resolves is
  the right one for the heap, and the right route leads to the
  same access check and the same body as resolution by name.

  Key definitions include:
    * `Action.guarded`

  Key theorems include:
    * `Machine.Coherent.modifySite`
    * `Action.Yields.accessSite`
    * `Action.Yields.resolveMiss`
    * `take_agree`
    * `reaches_invokeSite`
    * `invokeSite_agree`
-/

namespace RegisterVM

------------------------------------------------------------
-- Changing Sites
------------------------------------------------------------

namespace World

/- Changing the state of a site keeps the names of sites. -/
theorem map_name_modifySite
    (world : World)
    (id : SiteId)
    (change : SiteState → SiteState) :
    (world.modifySite id change).sites.map Site.name =
      world.sites.map Site.name := by
  apply Array.ext_getElem?
  intro i
  rw [Array.getElem?_map, Array.getElem?_map, modifySite,
    Array.getElem?_modify]
  split
  next => cases world.sites[i]? <;> rfl
  next => rfl

theorem getElem?_modifySite
    {world : World}
    {id i : SiteId}
    {change : SiteState → SiteState}
    {site : Site}
    (hSite : (world.modifySite id change).sites[i]? = some site) :
    ∃ old, world.sites[i]? = some old ∧ site.name = old.name ∧
      site.state =
        if id = i then change old.state else old.state := by
  rw [modifySite, Array.getElem?_modify] at hSite
  split at hSite
  next hSame =>
    rcases Option.map_eq_some_iff.mp hSite with
      ⟨old, hOld, rfl⟩
    exact ⟨old, hOld, rfl, (if_pos hSame).symm⟩
  next hOther =>
    exact ⟨site, hSite, rfl, (if_neg hOther).symm⟩

end World

/-
  A site may forget entries, and may remember new ones that fit
  the heap.
-/
theorem Machine.Coherent.modifySite
    {m : Machine}
    (hMachine : m.Coherent)
    {id : SiteId}
    {change : SiteState → SiteState}
    (hEntries :
      ∀ site, m.world.sites[id]? = some site →
        ∀ entry ∈ (change site.state).entries,
          entry ∈ site.state.entries ∨
            entry.Fits m.world.heap site.name) :
    Machine.Coherent
      { m with world := m.world.modifySite id change } where
  heap := hMachine.heap
  sites i site hSite := by
    rcases World.getElem?_modifySite hSite with
      ⟨old, hOld, hName, hState⟩
    have hOldSite := hMachine.sites i old hOld
    intro entry hMem
    rw [hName]
    rw [hState] at hMem
    split at hMem
    next hSame =>
      subst hSame
      rcases hEntries old hOld entry hMem with hKept | hNew
      · exact hOldSite entry hKept
      · exact hNew
    next => exact hOldSite entry hMem

namespace Action

namespace Yields

variable {m : Machine}

/- A change of what a site remembers does not show. -/
theorem modifySite
    (hMachine : m.Coherent)
    {id : SiteId}
    {change : SiteState → SiteState}
    (hEntries :
      ∀ site, m.world.sites[id]? = some site →
        ∀ entry ∈ (change site.state).entries,
          entry ∈ site.state.entries ∨
            entry.Fits m.world.heap site.name) :
    Yields (modifyWorld fun world => world.modifySite id change)
      m () := by
  refine ⟨_, rfl, hMachine.modifySite hEntries, hMachine, ?_⟩
  simp only [Machine.outline, World.map_name_modifySite]
  rfl

/- Reporting events does not show. -/
theorem reportAll
    (hMachine : m.Coherent)
    (event : SiteNote → Trace.Event)
    (notes : List SiteNote) :
    Yields
      (forIn notes PUnit.unit fun note _ => do
        Action.report (event note)
        Pure.pure (ForInStep.yield PUnit.unit))
      m PUnit.unit := by
  induction notes generalizing m with
  | nil => exact pure hMachine PUnit.unit
  | cons note notes ih =>
      rw [List.forIn_cons]
      have hReport :
          Yields
            (do
              Action.report (event note)
              Pure.pure (ForInStep.yield PUnit.unit))
            m (ForInStep.yield PUnit.unit) := by
        apply (report hMachine (event note)).bind
        intro m' hAlike
        exact pure hAlike.left _
      apply hReport.bind
      intro m' hAlike
      exact ih hAlike.left

/- Looking a key up yields what is remembered under it. -/
theorem accessSite
    (hMachine : m.Coherent)
    {id : SiteId}
    {site : Site}
    (hSite : m.world.sites[id]? = some site)
    (key : Key) :
    Yields (RegisterVM.accessSite id site key) m
      (site.state.lookup key).1 := by
  unfold RegisterVM.accessSite
  rw [← SiteState.route_access site.state site.tuning key]
  have hKept :
      ∀ entry ∈ (site.state.access site.tuning key).2.entries,
        entry ∈ site.state.entries :=
    fun entry hMem => SiteState.mem_access hMem
  generalize site.state.access site.tuning key = result at hKept ⊢
  rcases result with ⟨access, state⟩
  have hModify :
      Yields
        (modifyWorld fun world =>
          world.modifySite id fun _ => state)
        m () := by
    apply modifySite hMachine
    intro other hOther entry hMem
    rw [hSite] at hOther
    cases hOther
    exact Or.inl (hKept entry hMem)
  apply hModify.bind
  intro m' hAlike
  apply (reportAll hAlike.left _ access.notes).bind
  intro m'' hAlike'
  exact pure hAlike'.left access.route

/- Resolving a route finds the right one. -/
theorem routeResolve
    (hMachine : m.Coherent)
    {receiver : Value}
    {key : Key}
    (hKey : m.world.heap.key? receiver = some key)
    (name : String) :
    Yields (Route.resolve receiver name) m
      (m.world.heap.route key name) := by
  cases receiver with
  | inst i =>
      cases hKey
      apply (resolve hMachine i.cls name).bind
      intro m' hAlike
      have hName := (hAlike.sameLayout i.cls).className
      simp only [Heap.route, Bool.false_eq_true, if_false]
      cases m.world.heap.found? i.cls name with
      | none =>
          rw [← hName]
          exact observe hAlike.left fun m =>
            Route.failure
              (.notFound (m.world.heap.className i.cls) name)
      | some resolved =>
          rcases resolved with
            ⟨⟨member, visibility, declaring, body⟩, slot⟩
          cases body with
          | none => exact pure hAlike.left Route.generic
          | some body =>
              cases slot with
              | none =>
                  exact pure hAlike.left
                    (Route.direct body visibility declaring)
              | some index =>
                  exact pure hAlike.left
                    (Route.slot i.cls index)
  | cls c =>
      cases hKey
      apply (resolveStatic hMachine c name).bind
      intro m' hAlike
      have hName := (hAlike.sameLayout c).className
      simp only [Heap.route, if_true]
      cases m.world.heap.resolveStatic c name with
      | none =>
          rw [← hName]
          exact observe hAlike.left fun m =>
            Route.failure
              (.notFound
                (classScopeOwner (m.world.heap.className c)) name)
      | some callable =>
          exact pure hAlike.left (Route.classScope callable)
  | nil | bool | int | real | str | func => cases hKey

theorem resolveMiss
    (hMachine : m.Coherent)
    (site : Site)
    {receiver : Value}
    {key : Key}
    (hKey : m.world.heap.key? receiver = some key) :
    Yields (RegisterVM.resolveMiss site key receiver) m
      (m.world.heap.route key site.name) := by
  unfold RegisterVM.resolveMiss
  apply (routeResolve hMachine hKey site.name).bind
  intro m' hAlike
  apply (report hAlike.left _).bind
  intro m'' hAlike'
  cases m.world.heap.route key site.name with
  | failure cause =>
      apply (report hAlike'.left _).bind
      intro m''' hAlike''
      exact pure hAlike''.left _
  | slot | direct | classScope | generic =>
      exact pure hAlike'.left _

end Yields

------------------------------------------------------------
-- Taking The Right Route
------------------------------------------------------------

/- Run a body for an instance if its caller may call the member. -/
def guarded
    (run : Runner)
    (i : Instance)
    (record : MethodRecord)
    (body : Callable)
    (name : String)
    (args : List Value) : Action Value := do
  checkAccess record.visibility record.declaring name i.cls
  run body (.inst i) args

theorem similar_guarded
    {run : Runner}
    (hRun : Steady run)
    (i : Instance)
    (record : MethodRecord)
    (body : Callable)
    (name : String)
    (args : List Value) :
    Similar (guarded run i record body name args)
      (guarded run i record body name args) :=
  (Similar.checkAccess _ _ _ _).bind
    fun _ => hRun body (.inst i) args

end Action

/- The version of a key is the current one of its class. -/
theorem Heap.version_of_key?
    {heap : Heap}
    {receiver : Value}
    {key : Key}
    (hKey : heap.key? receiver = some key) :
    heap.version key.cls = key.version := by
  cases receiver with
  | inst | cls =>
      cases hKey
      rfl
  | nil | bool | int | real | str | func => cases hKey

/- A receiver has one key in machines that are alike. -/
theorem Machine.Alike.key?
    {m₁ m₂ : Machine}
    (hAlike : m₁.Alike m₂)
    {receiver : Value} :
    m₁.world.heap.key? receiver = m₂.world.heap.key? receiver := by
  cases receiver with
  | inst i =>
      rw [Heap.key?, Heap.key?, (hAlike.sameLayout i.cls).version]
  | cls c => rw [Heap.key?, Heap.key?, (hAlike.sameLayout c).version]
  | nil | bool | int | real | str | func => rfl

/- An entry with a current key and its right route fits. -/
theorem Machine.Alike.fits_route
    {m₁ m₂ : Machine}
    (hAlike : m₁.Alike m₂)
    {key : Key}
    (hCurrent : m₂.world.heap.version key.cls = key.version)
    (name : String) :
    Entry.Fits m₁.world.heap name
      ⟨key, m₂.world.heap.route key name⟩ := by
  have hSame := hAlike.sameLayout key.cls
  constructor
  · rw [← hCurrent, ← hSame.version]
    exact hAlike.left.heap.wellFormed.version_le_epoch key.cls
  · intro _
    exact (hSame.route name).symm

section Routes

open RegisterVM.Action

variable {run : Runner} {m : Machine}

/-
  A call by name checks the access of what resolution finds and
  runs its body: reading the slot back yields the same body.
-/
theorem invokeInstance_agree
    (hRun : Steady run)
    (hMachine : m.Coherent)
    {i : Instance}
    {name : String}
    {resolved : Heap.Resolved}
    {body : Callable}
    (hFound : m.world.heap.found? i.cls name = some resolved)
    (hBody : resolved.record.body = some body)
    (args : List Value) :
    Agree ((invokeInstance run i name args).run m)
      ((guarded run i resolved.record body name args).run m) := by
  have hSlot := hMachine.heap.wellFormed.slot_of_found? hFound
  unfold invokeInstance
  apply (Yields.resolve hMachine i.cls name).agree
  intro m' hAlike
  rw [hFound]
  simp only [hBody]
  have hCheck :=
    Similar.checkAccess resolved.record.visibility
      resolved.record.declaring name i.cls m' m hAlike
  apply hCheck.bind
  intro _ m₁ m₂ hPassed hAlike'
  cases hIndex : resolved.slot with
  | none => exact hRun body (.inst i) args m₁ m₂ hAlike'
  | some slot =>
      apply (Yields.slotTable hAlike'.left i.cls).agree
      intro m₁' hAlike''
      -- The check of access leaves the heap as resolution left it.
      have hWorld :=
        world_checkAccess resolved.record.visibility
          resolved.record.declaring name i.cls m'
      rw [hPassed] at hWorld
      have hTable :
          m₁.world.heap.builtTable i.cls =
            m.world.heap.builtTable i.cls := by
        rw [hWorld]
        exact (hAlike.sameLayout i.cls).builtTable
      have hRead :
          (m.world.heap.builtTable i.cls).get? slot =
            some resolved.record := by
        rw [hIndex] at hSlot
        split at hSlot
        next => cases hSlot
        next =>
          rcases hSlot with ⟨_, hSame, hRead⟩
          cases hSame
          exact hRead
      rw [hTable, hRead]
      simp only [Option.bind_some, hBody, Option.getD_some]
      exact hRun body (.inst i) args m₁' m₂
        (hAlike''.trans hAlike')

/- The right route of an instance leads where its name leads. -/
theorem take_agree_inst
    (hRun : Steady run)
    (hMachine : m.Coherent)
    (i : Instance)
    (name : String)
    (args : List Value) :
    Agree
      (((m.world.heap.route
          ⟨false, i.cls, m.world.heap.version i.cls⟩ name).take
            run (.inst i) name args).run m)
      ((invokeMethod run (.inst i) name args).run m) := by
  have hSelf := Machine.Alike.refl hMachine
  simp only [Heap.route, Bool.false_eq_true, if_false]
  cases hFound : m.world.heap.found? i.cls name with
  | none =>
      apply Agree.symm
      apply (Yields.resolve hMachine i.cls name).agree
      intro m' hAlike
      rw [hFound]
      have hName := (hAlike.sameLayout i.cls).className
      refine ⟨?_, hAlike⟩
      exact congrArg
        (fun owner =>
          Except.error (Fault.dispatch (.notFound owner name)))
        hName
  | some resolved =>
      have hName := Heap.name_of_found? hFound
      have hSlot := hMachine.heap.wellFormed.slot_of_found? hFound
      dsimp only
      unfold Heap.Resolved.route
      cases hBody : resolved.record.body with
      | none =>
          exact Similar.invokeMethod hRun (.inst i) name args
            m m hSelf
      | some body =>
          have hCall :=
            invokeInstance_agree hRun hMachine hFound hBody args
          cases hIndex : resolved.slot with
          | none => exact hCall.symm
          | some index =>
              rw [hIndex] at hSlot
              split at hSlot
              next => cases hSlot
              next =>
                rcases hSlot with ⟨_, hSame, hRead⟩
                cases hSame
                simp only [Route.take, ne_eq, not_true_eq_false,
                  if_false]
                apply (Yields.slotTable hMachine i.cls).agree
                intro m' hAlike
                simp only [hRead, Option.filter_some, hName,
                  beq_self_eq_true, if_true, hBody]
                apply Agree.trans _ hCall.symm
                exact similar_guarded hRun i resolved.record body
                  name args m' m hAlike

/- The right route of a class leads where its name leads. -/
theorem take_agree_cls
    (hRun : Steady run)
    (hMachine : m.Coherent)
    (c : ClassId)
    (name : String)
    (args : List Value) :
    Agree
      (((m.world.heap.route
          ⟨true, c, m.world.heap.version c⟩ name).take
            run (.cls c) name args).run m)
      ((invokeMethod run (.cls c) name args).run m) := by
  apply Agree.symm
  apply (Yields.resolveStatic hMachine c name).agree
  intro m' hAlike
  simp only [Heap.route, if_true]
  cases m.world.heap.resolveStatic c name with
  | none =>
      have hName := (hAlike.sameLayout c).className
      refine ⟨?_, hAlike⟩
      exact congrArg
        (fun owner =>
          Except.error
            (Fault.dispatch
              (.notFound (classScopeOwner owner) name)))
        hName
  | some callable => exact hRun callable (.cls c) args m' m hAlike

/- The right route of a receiver leads where the name leads. -/
theorem take_agree
    (hRun : Steady run)
    {m' : Machine}
    (hAlike : m'.Alike m)
    {receiver : Value}
    {key : Key}
    (hKey : m.world.heap.key? receiver = some key)
    (name : String)
    (args : List Value) :
    Agree
      (((m.world.heap.route key name).take run receiver name
        args).run m')
      ((invokeMethod run receiver name args).run m) := by
  rw [← hAlike.key?] at hKey
  rw [← (hAlike.sameLayout key.cls).route]
  apply Agree.trans _
    (Similar.invokeMethod hRun receiver name args m' m hAlike)
  cases receiver with
  | inst i =>
      cases hKey
      exact take_agree_inst hRun hAlike.left i name args
  | cls c =>
      cases hKey
      exact take_agree_cls hRun hAlike.left c name args
  | nil | bool | int | real | str | func => cases hKey

------------------------------------------------------------
-- Calls Through Sites
------------------------------------------------------------

/- What a coherent site finds under a current key is right. -/
theorem Site.Coherent.route_lookup
    {heap : Heap}
    {site : Site}
    (hSite : site.Coherent heap)
    {key : Key}
    (hCurrent : heap.version key.cls = key.version)
    {route : Route}
    (hLookup : (site.state.lookup key).1 = some route) :
    route = heap.route key site.name := by
  rcases SiteState.route_lookup hLookup with
    ⟨entry, hMem, rfl, rfl⟩
  exact (hSite entry hMem).right hCurrent

/-
  A call through a site makes the call by name or takes the right
  route, after changes that its outline does not show.
-/
theorem reaches_invokeSite
    (run : Runner)
    (hMachine : m.Coherent)
    {id : SiteId}
    {site : Site}
    (hSite : m.world.sites[id]? = some site)
    (receiver : Value)
    (args : List Value) :
    Reaches
      (fun action =>
        action = invokeMethod run receiver site.name args ∨
          ∃ key, m.world.heap.key? receiver = some key ∧
            action =
              (m.world.heap.route key site.name).take run
                receiver site.name args)
      m ((invokeSite run id receiver args).run m) := by
  unfold invokeSite
  rw [Effect.run_get_bind, hSite]
  dsimp only
  rw [run_heap_bind]
  cases hChosen :
      if site.tuning.enabled then m.world.heap.key? receiver
      else none with
  | none =>
      have hCold :
          Yields
            (modifyWorld fun world =>
              world.modifySite id SiteState.coldCall)
            m () := by
        apply Yields.modifySite hMachine
        intro other _ entry hMem
        exact Or.inl hMem
      apply hCold.reaches (.refl hMachine)
      intro m₁ hAlike₁
      exact ⟨_, Or.inl rfl, m₁, hAlike₁, rfl⟩
  | some key =>
      have hKey : m.world.heap.key? receiver = some key := by
        split at hChosen
        next => exact hChosen
        next => cases hChosen
      have hCurrent := Heap.version_of_key? hKey
      apply (Yields.accessSite hMachine hSite key).reaches
        (.refl hMachine)
      intro m₁ hAlike₁
      cases hLookup : (site.state.lookup key).1 with
      | some route =>
          have hRoute :=
            (hMachine.sites id site hSite).route_lookup hCurrent
              hLookup
          subst hRoute
          exact ⟨_, Or.inr ⟨key, hKey, rfl⟩, m₁, hAlike₁, rfl⟩
      | none =>
          have hKey₁ := hAlike₁.key?.trans hKey
          apply
            (Yields.resolveMiss hAlike₁.left site hKey₁).reaches
              hAlike₁
          intro m₂ hAlike₂
          rw [(hAlike₁.sameLayout key.cls).route]
          have hInsert :
              Yields
                (modifyWorld fun world =>
                  world.modifySite id fun state =>
                    state.insert
                      ⟨key, m.world.heap.route key site.name⟩)
                m₂ () := by
            apply Yields.modifySite hAlike₂.left
            intro other hOther entry hMem
            rcases SiteState.mem_insert hMem with hNew | hOld
            · rw [hAlike₂.site_name hOther hSite]
              exact Or.inr (hNew ▸ hAlike₂.fits_route hCurrent _)
            · exact Or.inl hOld
          apply hInsert.reaches hAlike₂
          intro m₃ hAlike₃
          exact ⟨_, Or.inr ⟨key, hKey, rfl⟩, m₃, hAlike₃, rfl⟩

/-
  A call through a site of a coherent machine ends as the call of
  its method by name.
-/
theorem invokeSite_agree
    (hRun : Steady run)
    (hMachine : m.Coherent)
    {id : SiteId}
    {site : Site}
    (hSite : m.world.sites[id]? = some site)
    (receiver : Value)
    (args : List Value) :
    Agree ((invokeSite run id receiver args).run m)
      ((invokeMethod run receiver site.name args).run m) := by
  rcases reaches_invokeSite run hMachine hSite receiver args with
    ⟨action, hAction, m', hAlike, hEnd⟩
  rw [hEnd]
  rcases hAction with hByName | ⟨key, hKey, hRoute⟩
  · rw [hByName]
    exact Similar.invokeMethod hRun receiver site.name args m' m
      hAlike
  · rw [hRoute]
    exact take_agree hRun hAlike hKey site.name args

/- A call through a site depends on outlines only. -/
theorem Action.Similar.invokeSite
    (hRun : Steady run)
    (id : SiteId)
    (receiver : Value)
    (args : List Value) :
    Similar
      (RegisterVM.invokeSite run id receiver args)
      (RegisterVM.invokeSite run id receiver args) := by
  intro m₁ m₂ hAlike
  cases hSite₁ : m₁.world.sites[id]? with
  | none =>
      have hSite₂ := hAlike.site_none hSite₁
      unfold RegisterVM.invokeSite
      rw [Effect.run_get_bind, Effect.run_get_bind, hSite₁, hSite₂]
      exact ⟨rfl, hAlike⟩
  | some site₁ =>
      rcases hAlike.site_some hSite₁ with
        ⟨site₂, hSite₂, hName⟩
      have hLeft :=
        invokeSite_agree hRun hAlike.left hSite₁ receiver args
      have hRight :=
        invokeSite_agree hRun hAlike.right hSite₂ receiver args
      have hByName :=
        Similar.invokeMethod hRun receiver site₁.name args m₁ m₂
          hAlike
      rw [hName] at hByName hLeft
      exact (hLeft.trans hByName).trans hRight.symm

end Routes

end RegisterVM
