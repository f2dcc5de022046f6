import RegisterVM.Proofs.Dispatch.Routines
import RegisterVM.Proofs.Site.Recency

/-
  What calls do to sites. Only a call through a site changes its
  state, before the body runs: it counts a cold call, or visits
  the site under the key of the receiver. So during a run a site
  sees its visits in the order in which the calls are made, those
  that bodies make while others are under way included.

  Key definitions include:
    * `Action.Quiet`
    * `Action.LeavesSites`
    * `Call.visit?`
    * `World.Sees`

  Key theorems include:
    * `sites_invokeSite`
    * `Call.sees`
    * `Routine.sees`
    * `Call.visit?_of_key`
-/

namespace RegisterVM

------------------------------------------------------------
-- Actions That Leave Sites Alone
------------------------------------------------------------

namespace Action

/- An action that yields a value and changes no site. -/
def Quiet
    {α : Type}
    (action : Action α) : Prop :=
  ∀ m, ∃ value m',
    action.run m = (.ok value, m') ∧ m'.world.sites = m.world.sites

/- An action that changes no site, whether it ends in a fault. -/
def LeavesSites
    {α : Type}
    (action : Action α) : Prop :=
  ∀ m, (action.run m).2.world.sites = m.world.sites

namespace Quiet

variable {α β : Type}

theorem pure
    (value : α) :
    Quiet (Pure.pure value) :=
  fun m => ⟨value, m, rfl, rfl⟩

theorem bind
    {first : Action α}
    {rest : α → Action β}
    (hFirst : Quiet first)
    (hRest : ∀ value, Quiet (rest value)) :
    Quiet (first >>= rest) := by
  intro m
  rcases hFirst m with ⟨value, m', hRun, hSites⟩
  rcases hRest value m' with ⟨result, m'', hRun', hSites'⟩
  refine ⟨result, m'', ?_, hSites'.trans hSites⟩
  rw [Effect.run_bind, hRun]
  exact hRun'

theorem deed
    (deed : Deed α) :
    Quiet deed.action := by
  intro m
  rcases deed.exists_value m with ⟨value, m', hRun⟩
  have hSites := deed.sites m
  rw [hRun] at hSites
  exact ⟨value, m', hRun, hSites⟩

theorem heap :
    Quiet Action.heap :=
  fun m => ⟨m.world.heap, m, rfl, rfl⟩

theorem report
    (event : Trace.Event) :
    Quiet (Action.report event) :=
  fun m => ⟨(), { m with world := m.world.report event }, rfl, rfl⟩

theorem reportAll
    (event : SiteNote → Trace.Event)
    (notes : List SiteNote) :
    Quiet
      (forIn notes PUnit.unit fun note _ => do
        Action.report (event note)
        Pure.pure (ForInStep.yield PUnit.unit)) := by
  induction notes with
  | nil => exact pure PUnit.unit
  | cons note notes ih =>
      rw [List.forIn_cons]
      apply ((report (event note)).bind fun _ => pure _).bind
      rintro (result | result)
      · exact pure result
      · exact ih

theorem routeResolve
    (receiver : Value)
    (name : String) :
    Quiet (Route.resolve receiver name) := by
  cases receiver with
  | inst i =>
      apply (deed (.resolve i.cls name)).bind
      rintro (_ | ⟨record, slot⟩)
      · exact heap.bind fun _ => pure _
      · cases hBody : record.body with
        | none =>
            simp only [hBody]
            exact pure _
        | some body =>
            simp only [hBody]
            cases slot <;> exact pure _
  | cls c =>
      apply (deed (.resolveStatic c name)).bind
      rintro (_ | callable)
      · exact heap.bind fun _ => pure _
      · exact pure _
  | nil | bool | int | real | str | func => exact pure _

theorem resolveMiss
    (site : Site)
    (key : Key)
    (receiver : Value) :
    Quiet (RegisterVM.resolveMiss site key receiver) := by
  unfold RegisterVM.resolveMiss
  apply (routeResolve receiver site.name).bind
  intro route
  apply (report _).bind
  intro _
  cases route with
  | failure cause => exact (report _).bind fun _ => pure _
  | slot | direct | classScope | generic => exact pure _

end Quiet

namespace LeavesSites

variable {α β : Type}

theorem throw
    (fault : Fault) :
    LeavesSites (MonadExcept.throw fault : Action α) :=
  fun _ => rfl

theorem deed
    (deed : Deed α) :
    LeavesSites deed.action :=
  deed.sites

theorem bind
    {first : Action α}
    {rest : α → Action β}
    (hFirst : LeavesSites first)
    (hRest : ∀ value, LeavesSites (rest value)) :
    LeavesSites (first >>= rest) := by
  intro m
  have hSites := hFirst m
  rw [Effect.run_bind]
  rcases hRun : first.run m with ⟨_ | value, m'⟩
  · rw [hRun] at hSites
    exact hSites
  · rw [hRun] at hSites
    exact (hRest value m').trans hSites

theorem heap :
    LeavesSites Action.heap :=
  fun _ => rfl

theorem arrive
    (callable : Callable)
    (receiver : Value)
    (args : List Value) :
    LeavesSites (Runner.arrive callable receiver args) :=
  fun _ => rfl

theorem checkAccess
    (visibility : Visibility)
    (declaring : ClassId)
    (member : String)
    (owner : ClassId) :
    LeavesSites
      (Action.checkAccess visibility declaring member owner) := by
  intro m
  rw [world_checkAccess]

theorem invokeInstance
    (i : Instance)
    (name : String)
    (args : List Value) :
    LeavesSites
      (RegisterVM.invokeInstance .arrive i name args) := by
  unfold RegisterVM.invokeInstance
  apply (deed (.resolve i.cls name)).bind
  rintro (_ | ⟨record, slot⟩)
  · exact heap.bind fun _ => throw _
  · cases hBody : record.body with
    | none =>
        simp only [hBody]
        exact heap.bind fun _ => throw _
    | some body =>
        simp only [hBody]
        apply (checkAccess _ _ _ _).bind
        intro _
        cases slot with
        | none => exact arrive body (.inst i) args
        | some slot =>
            exact (deed (.slotTable i.cls)).bind fun table =>
              arrive _ (.inst i) args

theorem invokeMethod
    (receiver : Value)
    (name : String)
    (args : List Value) :
    LeavesSites
      (RegisterVM.invokeMethod .arrive receiver name args) := by
  cases receiver with
  | inst i => exact invokeInstance i name args
  | cls c =>
      apply (deed (.resolveStatic c name)).bind
      rintro (_ | body)
      · exact heap.bind fun _ => throw _
      · exact arrive body (.cls c) args
  | nil | bool | int | real | str | func => exact throw _

theorem take
    (route : Route)
    (receiver : Value)
    (name : String)
    (args : List Value) :
    LeavesSites (route.take .arrive receiver name args) := by
  cases route with
  | slot cls index =>
      cases receiver with
      | inst i =>
          simp only [Route.take]
          split
          next => exact invokeInstance i name args
          next =>
            apply (deed (.slotTable i.cls)).bind
            intro table
            split
            next => exact invokeInstance i name args
            next =>
              split
              next => exact invokeInstance i name args
              next body _ =>
                exact (checkAccess _ _ _ _).bind
                  fun _ => arrive body (.inst i) args
      | nil | bool | int | real | str | cls | func =>
          exact invokeMethod _ name args
  | direct callable visibility declaring =>
      cases receiver with
      | inst i =>
          exact (checkAccess _ _ _ _).bind
            fun _ => arrive callable (.inst i) args
      | nil | bool | int | real | str | cls | func =>
          exact fun _ => rfl
  | classScope callable => exact arrive callable receiver args
  | generic => exact invokeMethod receiver name args
  | failure cause => exact throw _

end LeavesSites

end Action

------------------------------------------------------------
-- Calls Through Sites
------------------------------------------------------------

namespace World

/- The sites of a world with another state of one of them. -/
def withState
    (world : World)
    (id : SiteId)
    (state : SiteState) : Array Site :=
  (world.modifySite id fun _ => state).sites

theorem getElem?_withState
    (world : World)
    (id other : SiteId)
    (state : SiteState) :
    (world.withState id state)[other]? =
      if id = other then
        world.sites[other]?.map fun site => { site with state }
      else world.sites[other]? := by
  rw [withState, modifySite, Array.getElem?_modify]

theorem sites_modifySite_eq
    {world : World}
    {id : SiteId}
    {site : Site}
    (hSite : world.sites[id]? = some site)
    (change : SiteState → SiteState) :
    (world.modifySite id change).sites =
      world.withState id (change site.state) := by
  apply Array.ext_getElem?
  intro other
  rw [getElem?_withState, modifySite, Array.getElem?_modify]
  split
  next hSame =>
    subst hSame
    rw [hSite]
    rfl
  next => rfl

/- The state of a site after two changes. -/
theorem sites_modifySite_of_withState
    {world world' : World}
    {id : SiteId}
    {state : SiteState}
    (hSites : world'.sites = world.withState id state)
    (change : SiteState → SiteState) :
    (world'.modifySite id change).sites =
      world.withState id (change state) := by
  apply Array.ext_getElem?
  intro other
  rw [modifySite, Array.getElem?_modify, hSites,
    getElem?_withState, getElem?_withState]
  split
  next => cases world.sites[other]? <;> rfl
  next => rfl

end World

/- An access changes the state of its site and no other. -/
theorem run_accessSite
    (id : SiteId)
    (site : Site)
    (key : Key)
    (m : Machine) :
    ∃ m',
      (accessSite id site key).run m =
          (.ok (site.state.access site.tuning key).1.route, m') ∧
        m'.world.sites =
          m.world.withState id
            (site.state.access site.tuning key).2 := by
  unfold accessSite
  generalize site.state.access site.tuning key = result
  rcases result with ⟨access, state⟩
  have hReports :=
    Action.Quiet.reportAll (SiteNote.event site.name) access.notes
      { m with
        world := m.world.modifySite id fun _ => state }
  rcases hReports with ⟨_, m', hRun, hSites⟩
  refine ⟨m', ?_, hSites⟩
  rw [Effect.run_bind]
  show
    (forIn access.notes PUnit.unit _ >>= fun _ =>
      Pure.pure access.route : Action (Option Route)).run _ = _
  rw [Effect.run_bind, hRun]
  rfl

/- The key that a call through a site looks up, if it does. -/
def Site.key?
    (site : Site)
    (heap : Heap)
    (receiver : Value) : Option Key :=
  if site.tuning.enabled then heap.key? receiver else none

/-
  A call through a site counts a cold call, or visits the site
  under the key of its receiver, and then the body starts.
-/
theorem sites_invokeSite
    {m : Machine}
    {id : SiteId}
    {site : Site}
    (hSite : m.world.sites[id]? = some site)
    (receiver : Value)
    (args : List Value) :
    match site.key? m.world.heap receiver with
    | none =>
      ((invokeSite .arrive id receiver args).run m).2.world.sites =
        m.world.withState id site.state.coldCall
    | some key =>
      ∃ route,
        ((invokeSite .arrive id receiver args).run
            m).2.world.sites =
          m.world.withState id
            (site.state.visit site.tuning key route) := by
  unfold invokeSite
  rw [Effect.run_get_bind, hSite]
  dsimp only
  rw [Action.run_heap_bind]
  unfold Site.key?
  cases
    if site.tuning.enabled then m.world.heap.key? receiver
    else none with
  | none =>
      exact (Action.LeavesSites.invokeMethod _ _ _ _).trans
        (World.sites_modifySite_eq hSite _)
  | some key =>
      dsimp only
      rw [Effect.run_bind]
      rcases run_accessSite id site key m with ⟨m₁, hRun, hSites⟩
      rw [hRun]
      unfold SiteState.visit
      rcases hAccess : site.state.access site.tuning key with
        ⟨⟨_ | route, notes⟩, state⟩
      · rw [hAccess] at hSites
        dsimp only
        rcases Action.Quiet.resolveMiss site key receiver m₁ with
          ⟨route, m₂, hRun₂, hSites₂⟩
        rw [Effect.run_bind, hRun₂]
        refine ⟨route, ?_⟩
        refine (Action.LeavesSites.take _ _ _ _ _).trans ?_
        exact World.sites_modifySite_of_withState
          (hSites₂.trans hSites) _
      · rw [hAccess] at hSites
        refine ⟨route, ?_⟩
        exact (Action.LeavesSites.take _ _ _ _ _).trans hSites

------------------------------------------------------------
-- Visits Of A Site
------------------------------------------------------------

/- The receiver of a call that goes through a site. -/
def Dispatch.receiverAt?
    (id : SiteId) : Dispatch → Option Value
  | .method .. => none
  | .site other receiver _ =>
    if other = id then some receiver else none

namespace Call

/- The key that a call looks up at a site, if it does. -/
def key?
    (id : SiteId)
    (call : Call) : Option Key :=
  match
    call.dispatch.receiverAt? id,
    call.machine.world.sites[id]?
  with
  | some receiver, some site =>
    site.key? call.machine.world.heap receiver
  | _, _ => none

/- The visit that a call makes to a site, if it does. -/
def visit?
    (id : SiteId)
    (call : Call) : Option Visit :=
  match
    call.key? id,
    call.machine.world.sites[id]?,
    call.landing.2.world.sites[id]?
  with
  | some key, some before, some after =>
    some ⟨key, before.state, after.state⟩
  | _, _, _ => none

end Call

namespace World

/- From one world to another, a site sees some visits. -/
def Sees
    (id : SiteId)
    (world world' : World)
    (visits : List Visit) : Prop :=
  match world.sites[id]? with
  | none => world'.sites[id]? = none ∧ visits = []
  | some site =>
    ∃ state, world'.sites[id]? = some { site with state } ∧
      SiteState.Visits site.tuning site.state visits state

namespace Sees

variable {id : SiteId} {world world' world'' : World}

/- A site that does not change sees nothing. -/
theorem of_same
    (hSame : world'.sites[id]? = world.sites[id]?) :
    Sees id world world' [] := by
  unfold Sees
  split
  next hNone => exact ⟨hSame.trans hNone, rfl⟩
  next site hSite =>
    exact ⟨site.state, hSame.trans hSite, .nil site.state⟩

theorem append
    {visits visits' : List Visit}
    (hFirst : Sees id world world' visits)
    (hSecond : Sees id world' world'' visits') :
    Sees id world world'' (visits ++ visits') := by
  unfold Sees at hFirst hSecond ⊢
  cases hSite : world.sites[id]? with
  | none =>
      rw [hSite] at hFirst
      rcases hFirst with ⟨hNone, rfl⟩
      rw [hNone] at hSecond
      exact hSecond
  | some site =>
      rw [hSite] at hFirst
      rcases hFirst with ⟨state, hMiddle, hVisits⟩
      rw [hMiddle] at hSecond
      rcases hSecond with ⟨state', hEnd, hVisits'⟩
      exact ⟨state', hEnd, hVisits.append hVisits'⟩

end Sees

/- A site that was tuned and started afresh saw some visits. -/
def Saw
    (world : World)
    (id : SiteId)
    (tuning : Tuning)
    (visits : List Visit) : Prop :=
  match world.sites[id]? with
  | none => visits = []
  | some site =>
    site.tuning = tuning ∧
      SiteState.Visits tuning (.fresh tuning) visits site.state

/- A site that was just created saw nothing. -/
theorem Saw.of_new
    {world world' : World}
    {id : SiteId}
    {tuning : Tuning}
    {visits : List Visit}
    (hSaw : world.Saw id tuning visits)
    (hNone : world.sites[id]? = none)
    {name : String}
    (hNew : world'.sites[id]? = some (.new name tuning)) :
    world'.Saw id tuning visits := by
  unfold Saw at hSaw ⊢
  rw [hNone] at hSaw
  rw [hNew, show visits = [] from hSaw]
  exact ⟨rfl, .nil _⟩

theorem Saw.sees
    {world world' : World}
    {id : SiteId}
    {tuning : Tuning}
    {visits visits' : List Visit}
    (hSaw : world.Saw id tuning visits)
    (hSees : Sees id world world' visits') :
    world'.Saw id tuning (visits ++ visits') := by
  unfold Saw at hSaw ⊢
  unfold Sees at hSees
  cases hSite : world.sites[id]? with
  | none =>
      rw [hSite] at hSaw hSees
      rw [hSees.1, hSaw, hSees.2]
      rfl
  | some site =>
      rw [hSite] at hSaw hSees
      rcases hSees with ⟨state, hAfter, hVisits⟩
      rw [hSaw.1] at hVisits
      rw [hAfter]
      exact ⟨hSaw.1, hSaw.2.append hVisits⟩

end World

/- A call that looks up no key makes no visit. -/
theorem Call.visit?_of_key?_none
    {id : SiteId}
    {call : Call}
    (hKey : call.key? id = none) :
    [call].filterMap (Call.visit? id) = [] := by
  have hVisit : call.visit? id = none := by
    rw [visit?, hKey]
  rw [List.filterMap_cons_none hVisit, List.filterMap_nil]

/- A call through the site itself. -/
theorem Call.sees_through
    {m : Machine}
    {id : SiteId}
    {site : Site}
    (hSite : m.world.sites[id]? = some site)
    (receiver : Value)
    (args : List Value) :
    World.Sees id m.world
      (Call.landing ⟨.site id receiver args, m⟩).2.world
      ([⟨.site id receiver args, m⟩].filterMap
        (Call.visit? id)) := by
  have hSites := sites_invokeSite hSite receiver args
  have hKey :
      Call.key? id ⟨.site id receiver args, m⟩ =
        site.key? m.world.heap receiver := by
    simp only [key?, Dispatch.receiverAt?, if_true, hSite]
  have hEnd :
      (Call.landing ⟨.site id receiver args, m⟩).2 =
        ((invokeSite .arrive id receiver args).run m).2 :=
    snd_landing _ m
  rw [hEnd]
  cases hFound : site.key? m.world.heap receiver with
  | none =>
      rw [hFound] at hSites hKey
      rw [visit?_of_key?_none hKey]
      unfold World.Sees
      rw [hSite, hSites, World.getElem?_withState, if_pos rfl, hSite]
      exact ⟨_, rfl, .cold (.nil _)⟩
  | some key =>
      rw [hFound] at hSites hKey
      rcases hSites with ⟨route, hSites⟩
      have hAfter :
          ((invokeSite .arrive id receiver args).run
              m).2.world.sites[id]? =
            some
              { site with
                state :=
                  site.state.visit site.tuning key route } := by
        rw [hSites, World.getElem?_withState, if_pos rfl, hSite]
        rfl
      have hVisit :
          Call.visit? id ⟨.site id receiver args, m⟩ =
            some
              ⟨key, site.state,
                site.state.visit site.tuning key route⟩ := by
        rw [visit?, hKey, hEnd, hAfter, hSite]
      rw [List.filterMap_cons_some hVisit, List.filterMap_nil]
      unfold World.Sees
      rw [hSite]
      exact ⟨_, hAfter, .visit route (.nil _)⟩

/- A call is one visit of the site that it goes through, or none. -/
theorem Call.sees
    (id : SiteId)
    (call : Call) :
    World.Sees id call.machine.world call.landing.2.world
      ([call].filterMap (Call.visit? id)) := by
  rcases call with ⟨dispatch, m⟩
  cases dispatch with
  | method receiver name args =>
      rw [visit?_of_key?_none rfl]
      apply World.Sees.of_same
      rw [landing, snd_landing]
      exact congrArg (fun sites : Array Site => sites[id]?)
        (Action.LeavesSites.invokeMethod receiver name args m)
  | site other receiver args =>
      cases hSite : m.world.sites[other]? with
      | none =>
          have hKey :
              Call.key? id ⟨.site other receiver args, m⟩ =
                none := by
            unfold key?
            split
            next hThrough hHere =>
              simp only [Dispatch.receiverAt?] at hThrough
              split at hThrough
              next hSame =>
                rw [← hSame, hSite] at hHere
                cases hHere
              next => cases hThrough
            next => rfl
          rw [visit?_of_key?_none hKey]
          apply World.Sees.of_same
          rw [landing, snd_landing]
          simp only [Dispatch.action, invokeSite]
          rw [Effect.run_get_bind, hSite]
          rfl
      | some site =>
          by_cases hSame : other = id
          · subst hSame
            exact sees_through hSite receiver args
          · have hKey :
                Call.key? id ⟨.site other receiver args, m⟩ =
                  none := by
              simp only [key?, Dispatch.receiverAt?, hSame, if_false]
            rw [visit?_of_key?_none hKey]
            apply World.Sees.of_same
            rw [landing, snd_landing]
            have hSites := sites_invokeSite hSite receiver args
            simp only [Dispatch.action]
            split at hSites
            next =>
              rw [hSites, World.getElem?_withState, if_neg hSame]
            next =>
              rcases hSites with ⟨route, hSites⟩
              rw [hSites, World.getElem?_withState, if_neg hSame]

/- In a run, a site sees the visits of the calls, in order. -/
theorem Routine.sees
    (id : SiteId)
    (routine : Routine)
    (m : Machine) :
    World.Sees id m.world (routine.action.run m).2.world
      ((routine.calls m).filterMap (Call.visit? id)) := by
  apply Routine.run_induction
    (P := fun m calls m' =>
      World.Sees id m.world m'.world
        (calls.filterMap (Call.visit? id)))
  · exact fun m => .of_same rfl
  · intro m m' m'' calls calls' hFirst hSecond
    rw [List.filterMap_append]
    exact hFirst.append hSecond
  · intro α d m
    apply World.Sees.of_same
    rw [d.sites]
  · exact fun call => call.sees id

/- A site, if it is there, has a tuning. -/
def World.Tuned
    (world : World)
    (id : SiteId)
    (tuning : Tuning) : Prop :=
  ∀ site, world.sites[id]? = some site → site.tuning = tuning

theorem World.Saw.tuned
    {world : World}
    {id : SiteId}
    {tuning : Tuning}
    {visits : List Visit}
    (hSaw : world.Saw id tuning visits) :
    world.Tuned id tuning := by
  intro site hSite
  unfold Saw at hSaw
  rw [hSite] at hSaw
  exact hSaw.1

theorem World.Sees.tuned
    {world world' : World}
    {id : SiteId}
    {tuning : Tuning}
    {visits : List Visit}
    (hSees : World.Sees id world world' visits)
    (hTuned : world.Tuned id tuning) :
    world'.Tuned id tuning := by
  unfold Sees at hSees
  intro site' hSite'
  cases hSite : world.sites[id]? with
  | none =>
      rw [hSite] at hSees
      rw [hSees.1] at hSite'
      cases hSite'
  | some site =>
      rw [hSite] at hSees
      rcases hSees with ⟨state, hAfter, _⟩
      rw [hAfter] at hSite'
      cases hSite'
      exact hTuned site hSite

/- Sites are tuned in one way, whenever a call is made. -/
theorem Routine.tuned_calls
    (routine : Routine)
    {m : Machine}
    {id : SiteId}
    {tuning : Tuning}
    (hTuned : m.world.Tuned id tuning)
    {call : Call}
    (hCall : call ∈ routine.calls m) :
    call.machine.world.Tuned id tuning := by
  have hAll :=
    routine.holds_calls
      (I := fun m => m.world.Tuned id tuning)
      (fun d m hTuned => by
        rw [World.Tuned, d.sites]
        exact hTuned)
      (fun call hTuned => (call.sees id).tuned hTuned)
      hTuned
  exact hAll.2 call hCall

/- A call with a key visits the site if it is enabled. -/
theorem Call.visit?_of_key
    {id : SiteId}
    {call : Call}
    {receiver : Value}
    (hThrough : call.dispatch.receiverAt? id = some receiver)
    {site : Site}
    (hSite : call.machine.world.sites[id]? = some site)
    (hEnabled : site.tuning.enabled = true)
    {key : Key}
    (hKey : call.machine.world.heap.key? receiver = some key) :
    ∃ v, call.visit? id = some v ∧ v.key = key := by
  have hFound : call.key? id = some key := by
    simp only [key?, hThrough, hSite, Site.key?, hEnabled, hKey,
      if_true]
  have hSees := call.sees id
  unfold World.Sees at hSees
  rw [hSite] at hSees
  rcases hSees with ⟨state, hAfter, _⟩
  refine ⟨⟨key, site.state, state⟩, ?_, rfl⟩
  rw [visit?, hFound, hSite, hAfter]

end RegisterVM
