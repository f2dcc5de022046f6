import RegisterVM.Proofs.Dispatch.Verdicts
import RegisterVM.Proofs.Dispatch.Visits
import RegisterVM.Proofs.Workspace.Scripts

/-
  The calls of a script. Every call that a script makes, and that
  bodies make in turn, stands in one history, in the order in which
  the calls are made. Each of them follows the verdict on it, and
  the queries of a context do not depend on how sites are tuned.
  Each site recalls the keys that were looked up last, and so hits
  or misses by how recent a key is.

  Key definitions include:
    * `Request.calls`
    * `Script.calls`

  Key theorems include:
    * `Script.coherent_calls`
    * `Script.saw_calls`
    * `Script.site_recalls_recent`
    * `Script.calls_follow_verdicts`
-/

namespace RegisterVM

------------------------------------------------------------
-- Calls Of A Request
------------------------------------------------------------

namespace Request

/- The context and the call of a request, if it makes one. -/
def dispatch? : Request → Option (String × Dispatch)
  | .method context receiver name args =>
    some (context, .method receiver name args)
  | .site context id receiver args =>
    some (context, .site id receiver args)
  | _ => none

/- The calls that a request makes, in order. -/
def calls
    (bodies : Bodies)
    (request : Request)
    (w : Workspace) : List Call :=
  match request.dispatch? with
  | none => []
  | some (context, dispatch) =>
    (Routine.call bodies dispatch .done).calls (w.machine context)

/- The world after a call. -/
theorem world_perform_of_call
    (bodies : Bodies)
    {request : Request}
    {context : String}
    {dispatch : Dispatch}
    (hCall : request.dispatch? = some (context, dispatch))
    (tunings : SiteId → Tuning)
    (w : Workspace) :
    ((request.perform bodies.runner tunings).run w).2.world =
      ((Routine.call bodies dispatch .done).action.run
        (w.machine context)).2.world := by
  rw [Routine.run_call]
  rcases hRun :
      (dispatch.action bodies.runner).run (w.machine context) with
    ⟨result, m⟩
  dsimp only
  rw [Routine.run_done]
  have hWorld :
      ((request.perform bodies.runner tunings).run w).2.world =
        ((dispatch.action bodies.runner).run
          (w.machine context)).2.world := by
    cases request <;> cases hCall <;> rfl
  rw [hWorld, hRun]

/- Without a call, a site stays as it is or is created. -/
theorem site_perform_of_none
    {run : Runner}
    {request : Request}
    (hCall : request.dispatch? = none)
    (tunings : SiteId → Tuning)
    (w : Workspace)
    (id : SiteId) :
    ((request.perform run tunings).run w).2.world.sites[id]? =
        w.world.sites[id]? ∨
      w.world.sites[id]? = none ∧
        ∃ name,
          ((request.perform run tunings).run w).2.world.sites[id]? =
            some (.new name (tunings id)) := by
  cases request with
  | newSite handle name =>
      have hSites :
          ((Request.perform run tunings (.newSite handle name)).run
              w).2.world.sites =
            w.world.sites.push
              (.new name (tunings w.world.sites.size)) :=
        rfl
      rw [hSites, Array.getElem?_push]
      split
      next hPlace =>
        subst hPlace
        exact Or.inr ⟨Array.getElem?_size, name, rfl⟩
      next => exact Or.inl rfl
  | method | site => cases hCall
  | newClass | newInstance | newCallable | newContext | setCaller
  | define | defineStatic | remove | table | resolve =>
      exact Or.inl rfl

end Request

------------------------------------------------------------
-- Calls Of A Script
------------------------------------------------------------

namespace Script

/- The calls of some steps of a script, in order. -/
def calls
    (script : Script)
    (bodies : Bodies)
    (tunings : SiteId → Tuning) : Nat → List Call
  | 0 => []
  | steps + 1 =>
    let (moments, w) := script.run bodies.runner tunings steps
    Script.calls script bodies tunings steps ++
      (script moments).calls bodies w

/- Every call is made on a coherent machine. -/
theorem coherent_calls
    (script : Script)
    (bodies : Bodies)
    (tunings : SiteId → Tuning)
    (steps : Nat)
    {call : Call}
    (hCall : call ∈ script.calls bodies tunings steps) :
    call.machine.Coherent := by
  have hNative : bodies.runner.Native false :=
    bodies.native_runner nofun
  induction steps with
  | zero => cases hCall
  | succ steps ih =>
      rcases List.mem_append.mp hCall with hEarlier | hLatest
      · exact ih hEarlier
      · have hCoherent := coherent_run hNative script tunings steps
        unfold Request.calls at hLatest
        split at hLatest
        next => cases hLatest
        next context dispatch _ =>
          exact Routine.coherent_calls _ (hCoherent _) hLatest

/-
  A site is tuned as was asked for, starts afresh, and then sees
  the visits of all calls, in order.
-/
theorem saw_calls
    (script : Script)
    (bodies : Bodies)
    (tunings : SiteId → Tuning)
    (steps : Nat)
    (id : SiteId) :
    (script.run bodies.runner tunings steps).2.world.Saw id
      (tunings id)
      ((script.calls bodies tunings steps).filterMap
        (Call.visit? id)) := by
  induction steps with
  | zero => exact rfl
  | succ steps ih =>
      rw [calls, run]
      rcases hRun : script.run bodies.runner tunings steps with
        ⟨moments, w⟩
      rw [hRun] at ih
      rw [List.filterMap_append]
      unfold Request.calls
      cases hCall : (script moments).dispatch? with
      | none =>
          rcases Request.site_perform_of_none hCall tunings w id
            with hSame | ⟨hNone, name, hNew⟩
          · exact ih.sees (.of_same hSame)
          · rw [List.filterMap_nil, List.append_nil]
            exact ih.of_new hNone hNew
      | some call =>
          rcases call with ⟨context, dispatch⟩
          have hWorld :=
            Request.world_perform_of_call bodies hCall tunings w
          have hSees :=
            Routine.sees id (.call bodies dispatch .done)
              (w.machine context)
          rw [← hWorld] at hSees
          exact ih.sees hSees

theorem tuned_calls
    (script : Script)
    (bodies : Bodies)
    (tunings : SiteId → Tuning)
    (steps : Nat)
    (id : SiteId)
    {call : Call}
    (hCall : call ∈ script.calls bodies tunings steps) :
    call.machine.world.Tuned id (tunings id) := by
  induction steps with
  | zero => cases hCall
  | succ steps ih =>
      rcases List.mem_append.mp hCall with hEarlier | hLatest
      · exact ih hEarlier
      · have hSaw := saw_calls script bodies tunings steps id
        unfold Request.calls at hLatest
        split at hLatest
        next => cases hLatest
        next context dispatch _ =>
          exact Routine.tuned_calls _ hSaw.tuned hLatest

------------------------------------------------------------
-- Recency
------------------------------------------------------------

/-
  An enabled site is visited by every call that goes through it on
  an instance or a class. After each visit its entries have the
  keys that were looked up last, and the visit hits or misses by
  how many other keys were looked up since its own was; so a site
  that only ever sees two keys misses once for each.
-/
theorem site_recalls_recent
    (script : Script)
    (bodies : Bodies)
    (tunings : SiteId → Tuning)
    (steps : Nat)
    (id : SiteId)
    (hEnabled : (tunings id).enabled = true)
    (visits : List Visit)
    (hVisits :
      visits =
        (script.calls bodies tunings steps).filterMap
          (Call.visit? id)) :
    (∀ call ∈ script.calls bodies tunings steps,
      ∀ receiver key,
        call.dispatch.receiverAt? id = some receiver →
        call.machine.world.sites[id]?.isSome →
        call.machine.world.heap.key? receiver = some key →
        ∃ v ∈ visits, call.visit? id = some v ∧ v.key = key) ∧
      (∀ (n : Nat) (v : Visit), visits[n]? = some v →
        v.Recent (tunings id)
          ((visits.take n).map Visit.key).reverse) ∧
      ∀ site,
        (script.run bodies.runner tunings
            steps).2.world.sites[id]? = some site →
        (visits.map Visit.key).eraseDups.length ≤ 2 →
        site.state.misses =
          (visits.map Visit.key).eraseDups.length := by
  have hSaw := saw_calls script bodies tunings steps id
  rw [← hVisits] at hSaw
  have hFresh : (SiteState.fresh (tunings id)).Balanced (tunings id) :=
    .fresh (tunings id)
  have hNothing :
      SiteState.Recalls (tunings id) []
        (SiteState.fresh (tunings id)).entries :=
    .nil (tunings id)
  refine ⟨?_, ?_, ?_⟩
  · intro call hCall receiver key hThrough hThere hKey
    rcases Option.isSome_iff_exists.mp hThere with ⟨site, hSite⟩
    have hTuning :=
      tuned_calls script bodies tunings steps id hCall site hSite
    rcases Call.visit?_of_key hThrough hSite
        (hTuning ▸ hEnabled) hKey with ⟨v, hVisit, hSame⟩
    refine ⟨v, ?_, hVisit, hSame⟩
    rw [hVisits]
    exact List.mem_filterMap.mpr ⟨call, hCall, hVisit⟩
  · intro n v hVisit
    unfold World.Saw at hSaw
    split at hSaw
    next =>
      rw [hSaw] at hVisit
      simp at hVisit
    next =>
      have hRecent := hSaw.2.recent hFresh hNothing hVisit
      rw [List.append_nil] at hRecent
      exact hRecent
  · intro site hSite hTwo
    unfold World.Saw at hSaw
    rw [hSite] at hSaw
    have hLength :=
      length_eraseDups_reverse (visits.map Visit.key)
    have hMisses :=
      hSaw.2.misses_of_two hFresh hNothing rfl
        (by rwa [List.append_nil, hLength])
    rwa [List.append_nil, hLength] at hMisses

/-
  A site that is entered again, on an instance of another class,
  by a body that it runs: of the four visits of two calls, only
  the first one of either class misses.
-/
theorem site_recalls_recent_of_nested :
    let bodies : Bodies := fun callable _ _ =>
      if callable.name = "outer" then
        .call (fun _ _ _ => .done (.ok .nil))
          (.site 0 (.inst ⟨1, 2⟩) []) .done
      else .done (.ok .nil)
    let script : Script := fun moments =>
      match moments.length with
      | 0 => .newClass "Outer" "Outer" none
      | 1 => .newClass "Inner" "Inner" none
      | 2 => .define 1 "enter" .everyone (some ⟨0, "outer", .argc⟩)
      | 3 => .define 2 "enter" .everyone (some ⟨1, "inner", .argc⟩)
      | 4 => .newSite "site" "enter"
      | _ => .site "main" 0 (.inst ⟨0, 1⟩) []
    let visits :=
      (script.calls bodies (fun _ => {}) 7).filterMap
        (Call.visit? 0)
    visits.map Visit.key =
        [⟨false, 1, 3⟩, ⟨false, 2, 4⟩, ⟨false, 1, 3⟩,
          ⟨false, 2, 4⟩] ∧
      (∀ v, visits[2]? = some v → v.Hits) ∧
      ((script.run bodies.runner (fun _ => {})
          7).2.world.sites[0]?.map fun site =>
        site.state.misses) = some 2 := by
  intro bodies script visits
  have hKeys :
      visits.map Visit.key =
        [⟨false, 1, 3⟩, ⟨false, 2, 4⟩, ⟨false, 1, 3⟩,
          ⟨false, 2, 4⟩] := by
    decide +kernel
  have hRecalls :=
    site_recalls_recent script bodies (fun _ => {}) 7 0 rfl visits
      rfl
  have hThere :
      ((script.run bodies.runner (fun _ => {})
        7).2.world.sites[0]?.isSome) = true := by
    decide +kernel
  refine ⟨hKeys, ?_, ?_⟩
  · intro v hVisit
    have hRecent := hRecalls.2.1 2 v hVisit
    rw [List.map_take, hKeys] at hRecent
    have hKey : v.key = ⟨false, 1, 3⟩ := by
      have hThird := congrArg (fun keys => keys[2]?) hKeys
      simp only [List.getElem?_map, hVisit] at hThird
      exact Option.some.inj hThird
    apply hRecent.hits_of_near
    · rw [hKey]
      decide
    · rw [hKey]
      decide
  · rcases Option.isSome_iff_exists.mp hThere with ⟨site, hSite⟩
    have hMisses := hRecalls.2.2 site hSite
    rw [hKeys] at hMisses
    rw [hSite]
    exact congrArg some (hMisses (by decide))

------------------------------------------------------------
-- Access
------------------------------------------------------------

/-
  Caching neither weakens nor changes who may call what. Every
  call follows the verdict on it, whatever the bodies look at: an
  instance method runs right after one query about its own record,
  for the current caller and the name that was asked for, to which
  the answer was yes; if it is no, the call ends in the name of
  the class of the receiver and runs nothing; and missing,
  abstract and class-scope members are not asked for. And under
  any two tunings of the sites, every context gets the very same
  queries.
-/
theorem calls_follow_verdicts
    (script : Script)
    (bodies : Bodies)
    (hDiscreet : bodies.Discreet)
    (tunings₁ tunings₂ : SiteId → Tuning)
    (steps : Nat)
    (w₁ w₂ : Workspace)
    (hLeft : w₁ = (script.run bodies.runner tunings₁ steps).2)
    (hRight : w₂ = (script.run bodies.runner tunings₂ steps).2) :
    (∀ call ∈ script.calls bodies tunings₁ steps,
      ∀ name, call.name? = some name →
        call.Follows
          (call.machine.verdict call.dispatch.receiver name)) ∧
      ∀ context,
        (w₁.context context).context.queries =
            (w₂.context context).context.queries ∧
          (w₁.context context).context.stats.accessChecks =
            (w₂.context context).context.stats.accessChecks := by
  constructor
  · intro call hCall name hName
    have hCoherent :=
      coherent_calls script bodies tunings₁ steps hCall
    exact call.follows_of_coherent hCoherent hName
  · intro context
    have hNative : bodies.runner.Native true :=
      bodies.native_runner fun _ => hDiscreet
    have hSame := same_run hNative script tunings₁ tunings₂ steps
    rw [hLeft, hRight]
    have hOutline := (hSame.workspace context).outline
    exact ⟨congrArg Outline.queries hOutline,
      congrArg Outline.accessChecks hOutline⟩

/-
  A private method, called twice through a site: for no class,
  which is refused, and for its own class, which hits and is asked
  for again.
-/
theorem calls_follow_verdicts_of_private :
    let bodies : Bodies := fun callable _ _ =>
      .done (.ok (.str callable.name))
    let script : Script := fun moments =>
      match moments.length with
      | 0 => .newClass "Vault" "Vault" none
      | 1 => .define 1 "open" .owner (some ⟨0, "open", .argc⟩)
      | 2 => .newSite "site" "open"
      | 3 => .newContext "main" none .standard true
      | 5 => .setCaller "main" (some 1)
      | _ => .site "main" 0 (.inst ⟨0, 1⟩) []
    let w := (script.run bodies.runner (fun _ => {}) 7).2
    let plain :=
      (script.run bodies.runner (fun _ => .disabled) 7).2
    let calls := script.calls bodies (fun _ => {}) 7
    bodies.Discreet ∧
      (w.context "main").context.queries =
        [⟨.owner, 1, some 1, "open"⟩, ⟨.owner, 1, none, "open"⟩] ∧
      (plain.context "main").context.queries =
        (w.context "main").context.queries ∧
      (w.world.sites[0]?.map fun site => site.state.hits) =
        some 1 ∧
      calls.length = 2 ∧
      ∀ call ∈ calls,
        call.Follows
          (call.machine.verdict call.dispatch.receiver "open") := by
  intro bodies script w plain calls
  have hDiscreet : bodies.Discreet := fun _ _ _ => trivial
  have hFollow :=
    calls_follow_verdicts script bodies hDiscreet (fun _ => {})
      (fun _ => .disabled) 7 w plain rfl rfl
  have hNames :
      calls.map Call.name? = [some "open", some "open"] := by
    decide +kernel
  have hAsked :
      (w.context "main").context.queries =
        [⟨.owner, 1, some 1, "open"⟩,
          ⟨.owner, 1, none, "open"⟩] := by
    decide +kernel
  have hHits :
      (w.world.sites[0]?.map fun site => site.state.hits) =
        some 1 := by
    decide +kernel
  have hLength : calls.length = 2 := by
    rw [← List.length_map, hNames]
    rfl
  refine ⟨hDiscreet, hAsked, (hFollow.2 "main").1.symm, hHits,
    hLength, ?_⟩
  intro call hCall
  apply hFollow.1 call hCall
  have hName : call.name? ∈ calls.map Call.name? :=
    List.mem_map_of_mem hCall
  rw [hNames] at hName
  simpa using hName

end Script

end RegisterVM
