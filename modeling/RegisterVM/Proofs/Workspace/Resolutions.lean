import RegisterVM.Proofs.Workspace.CallHistory

/-
  Lookups by name that calls through sites make themselves, before
  a body starts. A hit makes none, since what it finds leads to a
  body without a further question about names; only an abstract
  member is looked up again, so that the error about it is made
  afresh. A miss makes one lookup to find its route, and a call
  that looks up no key makes the lookup of a call by name.

  Key definitions include:
    * `Action.Counts`
    * `Route.Reaches`
    * `Heap.isAbstract`
    * `Site.finding`
    * `Call.Takes`

  Key theorems include:
    * `Action.Counts.invokeMethod`
    * `Heap.Coherent.reaches_route`
    * `Heap.route_eq_generic_iff`
    * `Call.Takes.landing`
    * `Script.site_calls_resolve`
-/

namespace RegisterVM

------------------------------------------------------------
-- Counting Lookups
------------------------------------------------------------

/- The lookups by name that were counted so far. -/
def Machine.resolutions
    (m : Machine) : Nat :=
  m.context.stats.resolutions

/- Values that have members to look up. -/
def Value.hasMembers : Value → Bool
  | .inst _ | .cls _ => true
  | _ => false

namespace Action

/- An action that counts some lookups, however it ends. -/
def Counts
    {α : Type}
    (n : Nat)
    (action : Action α) : Prop :=
  ∀ m, (action.run m).2.resolutions = m.resolutions + n

namespace Counts

variable {α β : Type} {n : Nat}

theorem pure
    (value : α) :
    Counts 0 (Pure.pure value) :=
  fun _ => rfl

theorem throw
    (fault : Fault) :
    Counts 0 (MonadExcept.throw fault : Action α) :=
  fun _ => rfl

/- All lookups are counted before the rest of an action. -/
theorem bind
    {first : Action α}
    {rest : α → Action β}
    (hFirst : Counts n first)
    (hRest : ∀ value, Counts 0 (rest value)) :
    Counts n (first >>= rest) := by
  intro m
  have hCount := hFirst m
  rw [Effect.run_bind]
  rcases hRun : first.run m with ⟨_ | value, m'⟩
  · rw [hRun] at hCount
    exact hCount
  · rw [hRun] at hCount
    exact (hRest value m').trans hCount

theorem heap :
    Counts 0 Action.heap :=
  fun _ => rfl

theorem modifyWorld
    (change : World → World) :
    Counts 0 (Action.modifyWorld change) :=
  fun _ => rfl

theorem report
    (event : Trace.Event) :
    Counts 0 (Action.report event) :=
  modifyWorld _

theorem slotTable
    (cls : ClassId) :
    Counts 0 (Action.slotTable cls) :=
  fun _ => rfl

theorem resolve
    (cls : ClassId)
    (name : String) :
    Counts 1 (Action.resolve cls name) :=
  fun _ => rfl

theorem resolveStatic
    (cls : ClassId)
    (name : String) :
    Counts 1 (Action.resolveStatic cls name) :=
  fun _ => rfl

theorem checkAccess
    (visibility : Visibility)
    (declaring : ClassId)
    (member : String)
    (owner : ClassId) :
    Counts 0
      (Action.checkAccess visibility declaring member owner) := by
  intro m
  rw [m.run_checkAccess]
  rfl

theorem arrive
    (callable : Callable)
    (receiver : Value)
    (args : List Value) :
    Counts 0 (Runner.arrive callable receiver args) :=
  fun _ => rfl

theorem reportAll
    (event : SiteNote → Trace.Event)
    (notes : List SiteNote) :
    Counts 0
      (forIn notes PUnit.unit fun note _ => do
        Action.report (event note)
        Pure.pure (ForInStep.yield PUnit.unit)) := by
  induction notes with
  | nil => exact pure PUnit.unit
  | cons note notes ih =>
      rw [List.forIn_cons]
      apply ((report (event note)).bind fun _ => pure _).bind
      rintro (result | result)
      · exact pure result
      · exact ih

------------------------------------------------------------
-- Lookups Of Calls
------------------------------------------------------------

/- A call of an instance method by name looks it up once. -/
theorem invokeInstance
    (i : Instance)
    (name : String)
    (args : List Value) :
    Counts 1 (RegisterVM.invokeInstance .arrive i name args) := by
  unfold RegisterVM.invokeInstance
  apply (resolve i.cls name).bind
  rintro (_ | ⟨record, slot⟩)
  · exact heap.bind fun _ => throw _
  · cases hBody : record.body with
    | none =>
        simp only [hBody]
        exact heap.bind fun _ => throw _
    | some body =>
        simp only [hBody]
        apply (checkAccess _ _ _ _).bind
        intro _
        cases slot with
        | none => exact arrive body (.inst i) args
        | some slot =>
            exact (slotTable i.cls).bind fun table =>
              arrive _ (.inst i) args

/- A call by name looks the member up once, if there are any. -/
theorem invokeMethod
    (receiver : Value)
    (name : String)
    (args : List Value) :
    Counts (if receiver.hasMembers then 1 else 0)
      (RegisterVM.invokeMethod .arrive receiver name args) := by
  cases receiver with
  | inst i => exact invokeInstance i name args
  | cls c =>
      apply (resolveStatic c name).bind
      rintro (_ | body)
      · exact heap.bind fun _ => throw _
      · exact arrive body (.cls c) args
  | nil | bool | int | real | str | func => exact throw _

theorem routeResolve
    {receiver : Value}
    (hMembers : receiver.hasMembers = true)
    (name : String) :
    Counts 1 (Route.resolve receiver name) := by
  cases receiver with
  | inst i =>
      apply (resolve i.cls name).bind
      rintro (_ | ⟨record, slot⟩)
      · exact heap.bind fun _ => pure _
      · cases hBody : record.body with
        | none =>
            simp only [hBody]
            exact pure _
        | some body =>
            simp only [hBody]
            cases slot <;> exact pure _
  | cls c =>
      apply (resolveStatic c name).bind
      rintro (_ | callable)
      · exact heap.bind fun _ => pure _
      · exact pure _
  | nil | bool | int | real | str | func => cases hMembers

/- A miss looks the member up once. -/
theorem resolveMiss
    (site : Site)
    (key : Key)
    {receiver : Value}
    (hMembers : receiver.hasMembers = true) :
    Counts 1 (RegisterVM.resolveMiss site key receiver) := by
  unfold RegisterVM.resolveMiss
  apply (routeResolve hMembers site.name).bind
  intro route
  apply (report _).bind
  intro _
  cases route with
  | failure cause => exact (report _).bind fun _ => pure _
  | slot | direct | classScope | generic => exact pure _

theorem accessSite
    (id : SiteId)
    (site : Site)
    (key : Key) :
    Counts 0 (RegisterVM.accessSite id site key) := by
  unfold RegisterVM.accessSite
  rcases site.state.access site.tuning key with ⟨access, state⟩
  apply (modifyWorld _).bind
  intro _
  apply (reportAll _ access.notes).bind
  intro _
  exact pure access.route

end Counts

end Action

theorem Heap.hasMembers_of_key?
    {heap : Heap}
    {receiver : Value}
    {key : Key}
    (hKey : heap.key? receiver = some key) :
    receiver.hasMembers = true := by
  cases receiver with
  | inst | cls => rfl
  | nil | bool | int | real | str | func => cases hKey

------------------------------------------------------------
-- Routes That Reach A Body
------------------------------------------------------------

/-
  A slot route reaches a body: the receiver is an instance of its
  class, and the slot has a record of the name, with a body. So
  none of the ways out of a slot route is taken.
-/
def Route.Reaches
    (heap : Heap)
    (receiver : Value)
    (name : String) : Route → Prop
  | .slot cls index =>
    ∃ i record,
      receiver = .inst i ∧ i.cls = cls ∧
        (heap.slotTable cls).1.get? index = some record ∧
        record.name = name ∧ record.body.isSome
  | _ => True

/- The member that a name resolves to has no body. -/
def Heap.isAbstract
    (heap : Heap)
    (receiver : Value)
    (name : String) : Bool :=
  match receiver with
  | .inst i =>
    (heap.nearest? (heap.lineage i.cls) name).any
      MethodRecord.isAbstract
  | _ => false

/- The right route reaches a body. -/
theorem Heap.Coherent.reaches_route
    {heap : Heap}
    (hHeap : heap.Coherent)
    {receiver : Value}
    {key : Key}
    (hKey : heap.key? receiver = some key)
    (name : String) :
    (heap.route key name).Reaches heap receiver name := by
  cases receiver with
  | inst i =>
      cases hKey
      simp only [Heap.route, Bool.false_eq_true, if_false]
      cases hFound : heap.found? i.cls name with
      | none => trivial
      | some resolved =>
          have hName := Heap.name_of_found? hFound
          have hSlot := hHeap.wellFormed.slot_of_found? hFound
          dsimp only
          unfold Heap.Resolved.route
          cases hBody : resolved.record.body with
          | none => trivial
          | some body =>
              cases hIndex : resolved.slot with
              | none => trivial
              | some index =>
                  rw [hIndex] at hSlot
                  split at hSlot
                  next => cases hSlot
                  next =>
                    rcases hSlot with ⟨_, hSame, hRead⟩
                    cases hSame
                    rw [← (hHeap.slotTable i.cls).1] at hRead
                    exact ⟨i, resolved.record, rfl, rfl, hRead,
                      hName, by rw [hBody]; rfl⟩
  | cls c =>
      cases hKey
      simp only [Heap.route, if_true]
      cases heap.resolveStatic c name <;> trivial
  | nil | bool | int | real | str | func => cases hKey

/- Nothing is remembered for abstract members, and for no others. -/
theorem Heap.route_eq_generic_iff
    {heap : Heap}
    {receiver : Value}
    {key : Key}
    (hKey : heap.key? receiver = some key)
    (name : String) :
    heap.route key name = .generic ↔
      heap.isAbstract receiver name = true := by
  cases receiver with
  | inst i =>
      cases hKey
      simp only [Heap.route, Heap.isAbstract, Heap.found?,
        Bool.false_eq_true, if_false]
      cases heap.nearest? (heap.lineage i.cls) name with
      | none => simp
      | some record =>
          simp only [Option.map_some, Option.any_some,
            Heap.Resolved.route, MethodRecord.isAbstract]
          cases record.body with
          | none => simp
          | some body => split <;> simp_all
  | cls c =>
      cases hKey
      simp only [Heap.route, Heap.isAbstract, if_true]
      cases heap.resolveStatic c name <;> simp
  | nil | bool | int | real | str | func => cases hKey

/- A route that reaches a body looks up abstract members only. -/
theorem Route.resolutions_take
    {route : Route}
    {receiver : Value}
    {name : String}
    {m : Machine}
    (hMembers : receiver.hasMembers = true)
    (hReaches : route.Reaches m.world.heap receiver name)
    {abstract : Bool}
    (hGeneric : route = .generic ↔ abstract = true)
    (args : List Value) :
    ((route.take .arrive receiver name args).run m).2.resolutions =
      m.resolutions + if abstract then 1 else 0 := by
  have hDirect :
      route ≠ .generic → (if abstract then 1 else 0) = 0 := by
    intro hOther
    rw [if_neg fun hTrue => hOther (hGeneric.mpr hTrue)]
  cases route with
  | slot cls index =>
      rcases hReaches with
        ⟨i, record, rfl, rfl, hRead, hName, hBody⟩
      rcases Option.isSome_iff_exists.mp hBody with ⟨body, hBody⟩
      rw [hDirect (by simp)]
      have hTable :
          (Action.slotTable i.cls).run m =
            (.ok (m.world.heap.slotTable i.cls).1,
              m.withHeap (m.world.heap.slotTable i.cls).2) :=
        rfl
      simp only [Route.take, ne_eq, not_true_eq_false, if_false]
      rw [Effect.run_bind, hTable]
      simp only [hRead, Option.filter_some, hName,
        beq_self_eq_true, if_true, hBody]
      exact (Action.Counts.checkAccess _ _ _ _).bind
        (fun _ => .arrive body (.inst i) args) _
  | direct callable visibility declaring =>
      rw [hDirect (by simp)]
      cases receiver with
      | inst i =>
          exact (Action.Counts.checkAccess _ _ _ _).bind
            (fun _ => .arrive callable (.inst i) args) m
      | nil | bool | int | real | str | cls | func => rfl
  | classScope callable =>
      rw [hDirect (by simp)]
      rfl
  | generic =>
      have hCount := Action.Counts.invokeMethod receiver name args m
      rw [if_pos hMembers] at hCount
      rw [if_pos (hGeneric.mp rfl)]
      exact hCount
  | failure cause =>
      rw [hDirect (by simp)]
      rfl

------------------------------------------------------------
-- Calls Through Sites
------------------------------------------------------------

/- What a call through a site finds there. -/
inductive Finding where
  /- No key is looked up. -/
  | cold
  | hit (route : Route)
  | miss

/- What a call on a receiver finds at a site. -/
def Site.finding
    (site : Site)
    (heap : Heap)
    (receiver : Value) : Finding :=
  match site.key? heap receiver with
  | none => .cold
  | some key =>
    match (site.state.lookup key).1 with
    | some route => .hit route
    | none => .miss

/-
  After some lookups, a call through a site goes on by a route,
  on a machine on which the route reaches a body, and is generic
  for abstract members only.
-/
structure Call.Takes
    (call : Call)
    (site : Site)
    (lookups : Nat)
    (route : Route)
    (m : Machine) : Prop where
  resolutions :
    m.resolutions = call.machine.resolutions + lookups
  reaches :
    route.Reaches m.world.heap call.dispatch.receiver site.name
  generic :
    route = .generic ↔
      call.machine.world.heap.isAbstract call.dispatch.receiver
        site.name = true
  runs :
    ∀ run,
      (call.dispatch.action run).run call.machine =
        (route.take run call.dispatch.receiver site.name
          call.dispatch.args).run m

/- The lookups before a body starts, by the route that is taken. -/
theorem Call.Takes.landing
    {call : Call}
    {site : Site}
    {lookups : Nat}
    {route : Route}
    {m : Machine}
    (hTakes : call.Takes site lookups route m)
    (hMembers : call.dispatch.receiver.hasMembers = true) :
    call.landing.2.resolutions =
      call.machine.resolutions +
        (lookups +
          if call.machine.world.heap.isAbstract
              call.dispatch.receiver site.name then 1
          else 0) := by
  rw [Call.landing, snd_landing, hTakes.runs,
    Route.resolutions_take hMembers hTakes.reaches hTakes.generic,
    hTakes.resolutions, Nat.add_assoc]

section Sites

variable {m : Machine} {id : SiteId} {site : Site}
  {receiver : Value} {key : Key}

/- A site with a key looks it up. -/
theorem run_invokeSite_of_key
    (hSite : m.world.sites[id]? = some site)
    (hKey : site.key? m.world.heap receiver = some key)
    (run : Runner)
    (args : List Value) :
    (invokeSite run id receiver args).run m =
      (do
        match ← accessSite id site key with
        | some route => route.take run receiver site.name args
        | none =>
          let route ← resolveMiss site key receiver
          Action.modifyWorld fun world =>
            world.modifySite id fun state =>
              state.insert ⟨key, route⟩
          route.take run receiver site.name args : Action Value).run
        m := by
  unfold invokeSite
  rw [Effect.run_get_bind, hSite]
  dsimp only
  rw [Action.run_heap_bind]
  unfold Site.key? at hKey
  rewrite [hKey]
  rfl

theorem Site.key?_eq_some
    {heap : Heap}
    (hKey : site.key? heap receiver = some key) :
    heap.key? receiver = some key := by
  unfold Site.key? at hKey
  split at hKey
  next => exact hKey
  next => cases hKey

/- Without a key, a call is the call by name. -/
theorem resolutions_invokeSite_of_cold
    (hSite : m.world.sites[id]? = some site)
    (hKey : site.key? m.world.heap receiver = none)
    (args : List Value) :
    ((invokeSite .arrive id receiver args).run m).2.resolutions =
      m.resolutions + if receiver.hasMembers then 1 else 0 := by
  unfold invokeSite
  rw [Effect.run_get_bind, hSite]
  dsimp only
  rw [Action.run_heap_bind]
  unfold Site.key? at hKey
  rw [hKey]
  exact Action.Counts.invokeMethod receiver site.name args _

/- A hit takes what it finds, without a lookup. -/
theorem takes_of_hit
    (hMachine : m.Coherent)
    (hSite : m.world.sites[id]? = some site)
    (hKey : site.key? m.world.heap receiver = some key)
    {route : Route}
    (hLookup : (site.state.lookup key).1 = some route)
    (args : List Value) :
    ∃ m', Call.Takes ⟨.site id receiver args, m⟩ site 0 route m' := by
  have hFull := Site.key?_eq_some hKey
  have hCurrent := Heap.version_of_key? hFull
  have hRoute :=
    (hMachine.sites id site hSite).route_lookup hCurrent hLookup
  rcases Action.Yields.accessSite hMachine hSite key with
    ⟨m', hRun, hAlike⟩
  rw [hLookup] at hRun
  have hCount := Action.Counts.accessSite id site key m
  rw [hRun] at hCount
  have hSame := (hAlike.sameLayout key.cls).route site.name
  have hReaches :=
    hAlike.left.heap.reaches_route (hAlike.key?.trans hFull) site.name
  rw [hSame, ← hRoute] at hReaches
  have hGeneric := Heap.route_eq_generic_iff hFull site.name
  rw [← hRoute] at hGeneric
  refine ⟨m', hCount, hReaches, hGeneric, ?_⟩
  intro run
  simp only [Dispatch.action]
  rw [run_invokeSite_of_key hSite hKey, Effect.run_bind, hRun]
  rfl

/- A miss looks up its route, keeps it and takes it. -/
theorem takes_of_miss
    (hMachine : m.Coherent)
    (hSite : m.world.sites[id]? = some site)
    (hKey : site.key? m.world.heap receiver = some key)
    (hLookup : (site.state.lookup key).1 = none)
    (args : List Value) :
    ∃ route m',
      Call.Takes ⟨.site id receiver args, m⟩ site 1 route m' ∧
        m'.world.sites[id]? =
          some
            { site with
              state :=
                (site.state.access site.tuning key).2.insert
                  ⟨key, route⟩ } := by
  have hFull := Site.key?_eq_some hKey
  rcases Action.Yields.accessSite hMachine hSite key with
    ⟨m₁, hRun₁, hAlike₁⟩
  rw [hLookup] at hRun₁
  have hCount₁ := Action.Counts.accessSite id site key m
  rcases run_accessSite id site key m with ⟨other, hOther, hSites₁⟩
  rw [hRun₁] at hCount₁ hOther
  cases (Prod.mk.inj hOther).2
  have hFull₁ := hAlike₁.key?.trans hFull
  have hRoute := (hAlike₁.sameLayout key.cls).route site.name
  rcases Action.Yields.resolveMiss hAlike₁.left site hFull₁ with
    ⟨m₂, hRun₂, hAlike₂⟩
  have hCount₂ :=
    Action.Counts.resolveMiss site key
      (Heap.hasMembers_of_key? hFull) m₁
  rcases Action.Quiet.resolveMiss site key receiver m₁ with
    ⟨_, other, hOther, hSites₂⟩
  rw [hRun₂] at hCount₂ hOther
  cases (Prod.mk.inj hOther).2
  rw [hRoute] at hRun₂
  have hSame :=
    (hAlike₂.trans hAlike₁).sameLayout key.cls |>.route site.name
  have hReaches :=
    hAlike₂.left.heap.reaches_route
      (hAlike₂.key?.trans hFull₁) site.name
  rw [hSame] at hReaches
  let route := m.world.heap.route key site.name
  let m₃ : Machine :=
    { m₂ with
      world :=
        m₂.world.modifySite id fun state =>
          state.insert ⟨key, route⟩ }
  refine ⟨route, m₃, ⟨?_, hReaches, ?_, ?_⟩, ?_⟩
  · exact hCount₂.trans (congrArg (· + 1) hCount₁)
  · exact Heap.route_eq_generic_iff hFull site.name
  · intro run
    simp only [Dispatch.action]
    rw [run_invokeSite_of_key hSite hKey, Effect.run_bind, hRun₁]
    dsimp only
    rw [Effect.run_bind, hRun₂]
    rfl
  · rw [World.sites_modifySite_of_withState
      (hSites₂.trans hSites₁), World.getElem?_withState,
      if_pos rfl, hSite]
    rfl

end Sites

------------------------------------------------------------
-- Histories
------------------------------------------------------------

/-
  The lookups of a call through a site, by what it finds there. A
  hit makes none, or one for an abstract member, and takes what it
  found. A miss makes one, or two for an abstract member, and
  takes the route that it put into the site. Without a key, there
  is one lookup if the receiver has members.
-/
def Call.Resolves
    (call : Call)
    (id : SiteId)
    (site : Site) : Finding → Prop
  | .cold =>
    call.landing.2.resolutions =
      call.machine.resolutions +
        if call.dispatch.receiver.hasMembers then 1 else 0
  | .hit route =>
    call.landing.2.resolutions =
        call.machine.resolutions +
          (if call.machine.world.heap.isAbstract
              call.dispatch.receiver site.name then 1
            else 0) ∧
      ∃ m, call.Takes site 0 route m
  | .miss =>
    call.landing.2.resolutions =
        call.machine.resolutions +
          (if call.machine.world.heap.isAbstract
              call.dispatch.receiver site.name then 2
            else 1) ∧
      ∃ key route m,
        site.key? call.machine.world.heap call.dispatch.receiver =
            some key ∧
          call.Takes site 1 route m ∧
          m.world.sites[id]? =
            some
              { site with
                state :=
                  (site.state.access site.tuning key).2.insert
                    ⟨key, route⟩ }

/- Calls of coherent machines resolve by what they find. -/
theorem Call.resolves_of_coherent
    {m : Machine}
    (hMachine : m.Coherent)
    {id : SiteId}
    {site : Site}
    (hSite : m.world.sites[id]? = some site)
    (receiver : Value)
    (args : List Value) :
    Call.Resolves ⟨.site id receiver args, m⟩ id site
      (site.finding m.world.heap receiver) := by
  cases hKey : site.key? m.world.heap receiver with
  | none =>
      simp only [Site.finding, hKey, Call.Resolves]
      rw [Call.landing, snd_landing]
      exact resolutions_invokeSite_of_cold hSite hKey args
  | some key =>
      have hMembers :=
        Heap.hasMembers_of_key? (Site.key?_eq_some hKey)
      cases hLookup : (site.state.lookup key).1 with
      | some route =>
          simp only [Site.finding, hKey, hLookup, Call.Resolves]
          rcases takes_of_hit hMachine hSite hKey hLookup args
            with ⟨m', hTakes⟩
          have hLanding := hTakes.landing hMembers
          rw [Nat.zero_add] at hLanding
          exact ⟨hLanding, m', hTakes⟩
      | none =>
          simp only [Site.finding, hKey, hLookup, Call.Resolves]
          rcases takes_of_miss hMachine hSite hKey hLookup args
            with ⟨route, m', hTakes, hStored⟩
          refine ⟨?_, key, route, m', hKey, hTakes, hStored⟩
          rw [hTakes.landing hMembers]
          by_cases hAbstract :
              m.world.heap.isAbstract receiver site.name = true
          · simp [Dispatch.receiver, hAbstract]
          · simp [Dispatch.receiver, hAbstract]

/- Whether a call finds the generic route at its site. -/
def Call.findsGeneric
    (call : Call) : Bool :=
  match call.dispatch with
  | .method .. => false
  | .site id receiver _ =>
    match call.machine.world.sites[id]? with
    | none => false
    | some site =>
      match site.finding call.machine.world.heap receiver with
      | .hit .generic => true
      | _ => false

theorem Call.exists_of_findsGeneric
    {call : Call}
    (hFinds : call.findsGeneric = true) :
    ∃ id receiver args site,
      call.dispatch = .site id receiver args ∧
        call.machine.world.sites[id]? = some site ∧
        site.finding call.machine.world.heap receiver =
          .hit .generic := by
  unfold Call.findsGeneric at hFinds
  split at hFinds
  next => cases hFinds
  next id receiver args hDispatch =>
    split at hFinds
    next => cases hFinds
    next site hSite =>
      split at hFinds
      next hFinding =>
        exact ⟨id, receiver, args, site, hDispatch, hSite,
          hFinding⟩
      next => cases hFinds

namespace Script

/-
  Every call through a site makes the lookups that what it finds
  there requires, and no others, in every history of changes and
  calls. What sites keep under a key that a receiver still has is
  generic for abstract members only, and reaches a body if it is
  a slot.
-/
theorem site_calls_resolve
    (script : Script)
    (bodies : Bodies)
    (tunings : SiteId → Tuning)
    (steps : Nat)
    (world : World)
    (hWorld :
      world = (script.run bodies.runner tunings steps).2.world) :
    (∀ call ∈ script.calls bodies tunings steps,
      ∀ id receiver args site,
        call.dispatch = .site id receiver args →
        call.machine.world.sites[id]? = some site →
        call.Resolves id site
          (site.finding call.machine.world.heap receiver)) ∧
      ∀ (id : SiteId) (site : Site),
        world.sites[id]? = some site →
        ∀ entry ∈ site.state.entries, ∀ receiver,
          world.heap.key? receiver = some entry.key →
            (entry.route = .generic ↔
              world.heap.isAbstract receiver site.name = true) ∧
            entry.route.Reaches world.heap receiver site.name := by
  constructor
  · rintro ⟨_, m⟩ hCall id receiver args site rfl hSite
    have hMachine :=
      coherent_calls script bodies tunings steps hCall
    exact Call.resolves_of_coherent hMachine hSite receiver args
  · intro id site hSite entry hEntry receiver hKey
    have hNative : bodies.runner.Native false :=
      bodies.native_runner nofun
    have hMachine := coherent_run hNative script tunings steps {}
    rw [hWorld] at hSite hKey ⊢
    have hCurrent := Heap.version_of_key? hKey
    have hRoute :=
      (hMachine.sites id site hSite entry hEntry).right hCurrent
    have hGeneric := Heap.route_eq_generic_iff hKey site.name
    have hReaches := hMachine.heap.reaches_route hKey site.name
    rw [hRoute]
    exact ⟨hGeneric, hReaches⟩

/-
  A method with a body and one without, each called twice through
  a site of its own, and a site called on a number.
-/
theorem site_calls_resolve_of_abstract :
    let bodies : Bodies := fun _ _ _ => .done (.ok .nil)
    let script : Script := fun moments =>
      match moments.length with
      | 0 => .newClass "Task" "Task" none
      | 1 => .define 1 "run" .everyone (some ⟨0, "run", .argc⟩)
      | 2 => .define 1 "plan" .everyone none
      | 3 => .newSite "first" "run"
      | 4 => .newSite "second" "plan"
      | 5 | 6 => .site "main" 0 (.inst ⟨0, 1⟩) []
      | 7 | 8 => .site "main" 1 (.inst ⟨0, 1⟩) []
      | _ => .site "main" 0 (.int 3) []
    let calls := script.calls bodies (fun _ => {}) 10
    calls.map (fun call =>
        call.landing.2.resolutions - call.machine.resolutions) =
        [1, 0, 2, 1, 0] ∧
      ∀ call, calls[3]? = some call →
        ∃ site m, call.Takes site 0 .generic m := by
  intro bodies script calls
  have hCounts :
      calls.map (fun call =>
          call.landing.2.resolutions - call.machine.resolutions) =
        [1, 0, 2, 1, 0] := by
    decide +kernel
  have hHit : calls[3]?.any Call.findsGeneric = true := by
    decide +kernel
  refine ⟨hCounts, ?_⟩
  intro call hCall
  have hResolves :=
    (site_calls_resolve script bodies (fun _ => {}) 10 _ rfl).1
      call (List.mem_of_getElem? hCall)
  rw [hCall, Option.any_some] at hHit
  rcases Call.exists_of_findsGeneric hHit with
    ⟨id, receiver, args, site, hDispatch, hSite, hFinding⟩
  have hFound := hResolves id receiver args site hDispatch hSite
  rw [hFinding] at hFound
  exact ⟨site, hFound.2⟩

end Script

end RegisterVM
