import Mathlib.Data.List.ProdSigma
import RegisterVM.Proofs.Concurrency.Threads

/-
  What threads do to a site that they share. A step of a thread is
  at most one section of the site: it counts a cold call, looks a
  key up, or remembers a route for a key that it missed before. So
  the site goes through a run of such sections, one for the start
  of every call. As long as it has room for all keys that are
  looked up, it forgets none, and a thread that missed a key is
  either still about to remember it or never misses it again.

  Key definitions include:
    * `Thread.pending?`
    * `Pool.misses`
    * `Move`
    * `Pool.Serves`
    * `Pool.MissesOnce`

  Key theorems include:
    * `Phase.move_advance`
    * `Pool.move_step`
    * `Pool.serves_run`
    * `Pool.missesOnce_run`
-/

namespace RegisterVM

------------------------------------------------------------
-- Sections
------------------------------------------------------------

namespace Call

/- Whether a call goes through a site. -/
def through
    (id : SiteId)
    (call : Call) : Bool :=
  (call.dispatch.receiverAt? id).isSome

/- The key that a call looks up at a site and does not find. -/
def missed?
    (id : SiteId)
    (call : Call) : Option Key :=
  match call.key? id, call.machine.world.sites[id]? with
  | some key, some site =>
    if (site.state.find? key).isSome then none else some key
  | _, _ => none

theorem key?_of_aside
    {id : SiteId}
    {call : Call}
    (hAside : call.through id = false) :
    call.key? id = none := by
  unfold key?
  split
  next hThrough _ =>
    rw [through, hThrough] at hAside
    cases hAside
  next => rfl

theorem missed?_of_key?_none
    {id : SiteId}
    {call : Call}
    (hKey : call.key? id = none) :
    call.missed? id = none := by
  rw [missed?, hKey]

end Call

/- The site after a section, or without one. -/
def Site.after
    (site : Site) : Option SiteStep → Site
  | none => site
  | some step =>
    { site with state := site.state.step site.tuning step }

/-
  What a step can do to a site: the call that it starts, if any,
  the section, and the key that the thread is about to remember,
  before and after.
-/
inductive Move
    (id : SiteId)
    (site : Site) :
    Option Call → Option SiteStep → Option Key → Option Key →
      Prop where
  | aside (started : Option Call) (pending : Option Key)
      (hAside : ∀ call ∈ started, call.through id = false) :
    Move id site started none pending pending
  | cold (call : Call)
      (hThrough : call.through id = true)
      (hKey : call.key? id = none) :
    Move id site (some call) (some .cold) none none
  | hit (call : Call) (key : Key)
      (hThrough : call.through id = true)
      (hKey : call.key? id = some key)
      (hMissed : call.missed? id = none)
      (hFind : (site.state.find? key).isSome = true) :
    Move id site (some call) (some (.access key)) none none
  | miss (call : Call) (key : Key)
      (hThrough : call.through id = true)
      (hKey : call.key? id = some key)
      (hMissed : call.missed? id = some key)
      (hFind : (site.state.find? key).isSome = false) :
    Move id site (some call) (some (.access key)) none (some key)
  | insert (entry : Entry) :
    Move id site none (some (.insert entry)) (some entry.key) none

/- A step that starts no call. -/
theorem Move.of_none
    (id : SiteId)
    (site : Site)
    (pending : Option Key) :
    Move id site none none pending pending := by
  apply Move.aside
  intro call hNone
  cases hNone

namespace Phase

/- The key that a call is about to remember. -/
def pending? : Phase → Option Key
  | missed _ key | resolved _ key _ => some key
  | _ => none

end Phase

/- The key that a call is about to remember at a site. -/
def Dispatch.pending?
    (id : SiteId)
    (dispatch : Dispatch)
    (phase : Phase) : Option Key :=
  if (dispatch.receiverAt? id).isSome then phase.pending? else none

theorem Dispatch.eq_site_of_receiverAt?
    {id : SiteId}
    {dispatch : Dispatch}
    {receiver : Value}
    (hThrough : dispatch.receiverAt? id = some receiver) :
    ∃ args, dispatch = .site id receiver args := by
  cases dispatch with
  | method => cases hThrough
  | site other receiver' args =>
      simp only [receiverAt?] at hThrough
      split at hThrough
      next hSame =>
        cases hThrough
        exact ⟨args, hSame ▸ rfl⟩
      next => cases hThrough

namespace Headway

/- The machine after a step. -/
def machine : Headway → Machine
  | waits _ m => m
  | lands ending => ending.2

/- The phase after a step. -/
def phase : Headway → Phase
  | waits phase _ => phase
  | lands _ => .ready

end Headway

namespace Phase

theorem sites_landing
    {call : Runner → Action Value}
    (hCall : (call .arrive).LeavesSites)
    (m : Machine) :
    (landing call m).2.world.sites = m.world.sites := by
  rw [snd_landing]
  exact hCall m

/- A call through another site leaves a site as it is. -/
theorem site_advance_of_aside
    {id : SiteId}
    {dispatch : Dispatch}
    (hAside : dispatch.receiverAt? id = none)
    (m : Machine)
    (phase : Phase) :
    (phase.advance dispatch m).machine.world.sites[id]? =
      m.world.sites[id]? := by
  cases dispatch with
  | method receiver name args =>
      simp only [advance, Headway.machine]
      rw [sites_landing (.invokeMethod receiver name args)]
  | site other receiver args =>
      have hOther : other ≠ id := by
        intro hSame
        simp [Dispatch.receiverAt?, hSame] at hAside
      cases phase with
      | ready =>
          simp only [advance]
          split
          next => rfl
          next site hSite =>
            split
            next =>
              simp only [Headway.machine, Machine.modifySite]
              rw [World.sites_modifySite_eq hSite,
                World.getElem?_withState, if_neg hOther]
            next key _ =>
              rcases run_accessSite other site key m with
                ⟨m', hRun, hSites⟩
              rw [hRun]
              cases (site.state.access site.tuning key).1.route <;>
                simp only [Headway.from, Headway.machine] <;>
                rw [hSites, World.getElem?_withState,
                  if_neg hOther]
      | missed site key =>
          rcases Action.Quiet.resolveMiss site key receiver m with
            ⟨route, m', hRun, hSites⟩
          simp only [advance, hRun, Headway.from, Headway.machine,
            hSites]
      | resolved site key route =>
          simp only [advance, Headway.machine, Machine.modifySite,
            World.modifySite]
          rw [Array.getElem?_modify, if_neg hOther]
      | routed site route =>
          simp only [advance, Headway.machine]
          rw [sites_landing (.take route receiver site.name args)]

/- The first step of a call through a site. -/
theorem move_ready
    {m : Machine}
    {id : SiteId}
    {site : Site}
    (hSite : m.world.sites[id]? = some site)
    (receiver : Value)
    (args : List Value) :
    ∃ step,
      Move id site (some ⟨.site id receiver args, m⟩) step none
          (ready.advance (.site id receiver args) m).phase.pending? ∧
        (ready.advance (.site id receiver args)
            m).machine.world.sites[id]? =
          some (site.after step) := by
  have hThrough :
      Call.through id ⟨.site id receiver args, m⟩ = true := by
    simp [Call.through, Dispatch.receiverAt?]
  have hKey :
      Call.key? id ⟨.site id receiver args, m⟩ =
        site.key? m.world.heap receiver := by
    simp only [Call.key?, Dispatch.receiverAt?, if_true, hSite]
  simp only [advance, hSite]
  split
  next hCold =>
    rw [hCold] at hKey
    refine ⟨some .cold, .cold _ hThrough hKey, ?_⟩
    simp only [Headway.machine, Machine.modifySite]
    rw [World.sites_modifySite_eq hSite, World.getElem?_withState,
      if_pos rfl, hSite]
    rfl
  next key hLooked =>
    rw [hLooked] at hKey
    rcases run_accessSite id site key m with ⟨m', hRun, hSites⟩
    have hAfter :
        m'.world.sites[id]? =
          some (site.after (some (.access key))) := by
      rw [hSites, World.getElem?_withState, if_pos rfl, hSite]
      rfl
    refine ⟨some (.access key), ?_⟩
    rw [hRun, SiteState.route_access]
    unfold SiteState.lookup
    cases hFind : site.state.find? key with
    | none =>
        refine ⟨.miss _ key hThrough hKey ?_ (by simp [hFind]),
          hAfter⟩
        simp [Call.missed?, hKey, hSite, hFind]
    | some entry =>
        refine ⟨.hit _ key hThrough hKey ?_ (by simp [hFind]),
          hAfter⟩
        simp [Call.missed?, hKey, hSite, hFind]

/- A step of a call is at most one section of a site. -/
theorem move_advance
    {m : Machine}
    {id : SiteId}
    {site : Site}
    (hSite : m.world.sites[id]? = some site)
    (dispatch : Dispatch)
    (phase : Phase) :
    ∃ step,
      Move id site (phase.started ⟨dispatch, m⟩) step
          (dispatch.pending? id phase)
          (dispatch.pending? id
            (phase.advance dispatch m).phase) ∧
        (phase.advance dispatch m).machine.world.sites[id]? =
          some (site.after step) := by
  cases hThrough : dispatch.receiverAt? id with
  | none =>
      have hNone :
          ∀ phase, dispatch.pending? id phase = none := by
        intro phase
        simp [Dispatch.pending?, hThrough]
      refine ⟨none, ?_, ?_⟩
      · rw [hNone, hNone]
        apply Move.aside
        intro call hStarted
        have hCall : call = ⟨dispatch, m⟩ := by
          cases phase <;> cases hStarted
          rfl
        simp [hCall, Call.through, hThrough]
      · rw [site_advance_of_aside hThrough, hSite]
        rfl
  | some receiver =>
      have hSome :
          ∀ phase, dispatch.pending? id phase = phase.pending? := by
        intro phase
        simp [Dispatch.pending?, hThrough]
      rw [hSome, hSome]
      rcases Dispatch.eq_site_of_receiverAt? hThrough with
        ⟨args, rfl⟩
      cases phase with
      | ready => exact move_ready hSite receiver args
      | missed found key =>
          rcases Action.Quiet.resolveMiss found key receiver m with
            ⟨route, m', hRun, hSites⟩
          refine ⟨none, ?_, ?_⟩
          · simp only [advance, hRun]
            exact .of_none id site (some key)
          · simp only [advance, hRun, Headway.from,
              Headway.machine, hSites, hSite]
            rfl
      | resolved found key route =>
          refine ⟨some (.insert ⟨key, route⟩),
            .insert ⟨key, route⟩, ?_⟩
          simp only [advance, Headway.machine, Machine.modifySite]
          rw [World.sites_modifySite_eq hSite,
            World.getElem?_withState, if_pos rfl, hSite]
          rfl
      | routed found route =>
          refine ⟨none, .of_none id site none, ?_⟩
          simp only [advance, Headway.machine]
          rw [sites_landing (.take route receiver found.name args),
            hSite]
          rfl

end Phase

------------------------------------------------------------
-- Steps Of Threads
------------------------------------------------------------

/- The key that a thread is about to remember at a site. -/
def Thread.pending?
    (id : SiteId)
    (t : Thread) : Option Key :=
  match t.now with
  | .call _ dispatch _ => dispatch.pending? id t.phase
  | _ => none

theorem Dispatch.pending?_ready
    (id : SiteId)
    (dispatch : Dispatch) :
    dispatch.pending? id .ready = none := by
  unfold pending?
  split <;> rfl

theorem Thread.pending?_ready
    (id : SiteId)
    (context : Context)
    (frames : List Activation)
    (now : Routine) :
    Thread.pending? id ⟨context, frames, .ready, now⟩ = none := by
  unfold pending?
  split
  next dispatch _ _ => exact dispatch.pending?_ready id
  next => rfl

namespace Pool

/- The key that a thread of a pool is about to remember. -/
def pending?
    (id : SiteId)
    (s : Pool)
    (j : Nat) : Option Key :=
  s.threads[j]?.bind (Thread.pending? id)

/-
  A step of a thread: its move at a site, and that it leaves the
  other threads as they are.
-/
structure Moved
    (id : SiteId)
    (site : Site)
    (j : Nat)
    (s s' : Pool)
    (started : Option Call)
    (step : Option SiteStep) : Prop where
  move :
    Move id site started step (s.pending? id j) (s'.pending? id j)
  starts : s'.starts = started.toList.map (Start.mk j) ++ s.starts
  site : s'.world.sites[id]? = some (site.after step)
  others : ∀ k, k ≠ j → s'.pending? id k = s.pending? id k
  length : s'.threads.length = s.threads.length
  known : ∀ call ∈ started, j < s.threads.length

variable {id : SiteId} {site : Site} {s s' : Pool} {j : Nat}
variable {t t' : Thread}

/- From the move of a thread to that of its pool. -/
theorem Moved.of_thread
    {started : Option Call}
    {step : Option SiteStep}
    (hThread : s.threads[j]? = some t)
    (hThreads : s'.threads = s.threads.set j t')
    (hMove :
      Move id site started step (t.pending? id) (t'.pending? id))
    (hStarts :
      s'.starts = started.toList.map (Start.mk j) ++ s.starts)
    (hSite : s'.world.sites[id]? = some (site.after step)) :
    Moved id site j s s' started step := by
  rcases List.getElem?_eq_some_iff.mp hThread with ⟨hKnown, _⟩
  have hBefore : s.pending? id j = t.pending? id := by
    rw [pending?, hThread]
    rfl
  have hAfter : s'.pending? id j = t'.pending? id := by
    rw [pending?, hThreads, List.getElem?_set_self hKnown]
    rfl
  refine ⟨?_, hStarts, hSite, ?_, ?_, fun _ _ => hKnown⟩
  · rw [hBefore, hAfter]
    exact hMove
  · intro k hOther
    rw [pending?, pending?, hThreads,
      List.getElem?_set_ne (Ne.symm hOther)]
  · rw [hThreads, List.length_set]

/- Every step of a pool is a move of one thread. -/
theorem move_step
    (hSite : s.world.sites[id]? = some site)
    (j : Nat) :
    ∃ started step,
      Moved id site j s (s.step Phase.advance j) started step := by
  have hIdle : Moved id site j s s none none := by
    refine ⟨.of_none id site _, rfl, hSite, fun _ _ => rfl, rfl, ?_⟩
    intro call hNone
    cases hNone
  unfold Pool.step
  cases hThread : s.threads[j]? with
  | none => exact ⟨none, none, hIdle⟩
  | some t =>
      rcases t with ⟨context, frames, phase, now⟩
      cases now with
      | done result =>
          cases frames with
          | nil => exact ⟨none, none, hIdle⟩
          | cons frame frames =>
              refine ⟨none, none,
                .of_thread hThread rfl ?_ rfl hSite⟩
              rw [Thread.pending?_ready]
              exact .of_none id site none
      | deed d next =>
          rcases hRun : d.action.run ⟨s.world, context⟩ with
            ⟨result, m⟩
          rcases d.exists_value ⟨s.world, context⟩ with
            ⟨value, m', hValue⟩
          have hSites := d.sites ⟨s.world, context⟩
          rw [hRun] at hValue hSites
          cases hValue
          simp only [stepThread, hRun]
          refine ⟨none, none,
            .of_thread hThread
              (threads_goOn_of (s.threads_changing d.step?) j _ m)
              ?_ (s.starts_changing d.step?) ?_⟩
          · rw [Thread.pending?_ready]
            exact .of_none id site none
          · show m.world.sites[id]? = _
            rw [hSites]
            exact hSite
      | call bodies dispatch next =>
          have hMove :=
            Phase.move_advance (m := ⟨s.world, context⟩) hSite
              dispatch phase
          rcases hMove with ⟨step, hMove, hAfter⟩
          refine ⟨phase.started ⟨dispatch, ⟨s.world, context⟩⟩,
            step, ?_⟩
          simp only [stepThread]
          rcases hAdvance :
              phase.advance dispatch ⟨s.world, context⟩ with
            ⟨phase', m⟩ | ⟨fault | body, m⟩
          · rw [hAdvance] at hMove hAfter
            exact .of_thread hThread rfl hMove rfl hAfter
          · rw [hAdvance] at hMove hAfter
            refine .of_thread hThread rfl ?_ rfl hAfter
            rw [Headway.phase, Dispatch.pending?_ready] at hMove
            rw [Thread.pending?_ready]
            exact hMove
          · rw [hAdvance] at hMove hAfter
            refine .of_thread hThread rfl ?_ rfl hAfter
            rw [Headway.phase, Dispatch.pending?_ready] at hMove
            rw [Thread.pending?_ready]
            exact hMove

------------------------------------------------------------
-- Counting
------------------------------------------------------------

end Pool

/- Every start through a site is one counting section. -/
theorem Move.count
    {id : SiteId}
    {site : Site}
    {started : Option Call}
    {step : Option SiteStep}
    {before after : Option Key}
    (hMove : Move id site started step before after) :
    step.toList.countP SiteStep.isAccess +
        step.toList.countP SiteStep.isCold =
      started.toList.countP (Call.through id) := by
  cases hMove with
  | aside started pending hAside =>
      cases started with
      | none => rfl
      | some call =>
          have hCall := hAside call rfl
          simp [hCall]
  | cold call hThrough _ =>
      simp [hThrough, SiteStep.isAccess, SiteStep.isCold]
  | hit call key hThrough _ _ _ =>
      simp [hThrough, SiteStep.isAccess, SiteStep.isCold]
  | miss call key hThrough _ _ _ =>
      simp [hThrough, SiteStep.isAccess, SiteStep.isCold]
  | insert entry => rfl

theorem Site.state_after
    {site : Site}
    {steps : List SiteStep}
    (hState : site.state = SiteState.run site.tuning steps)
    (step : Option SiteStep) :
    (site.after step).state =
      SiteState.run site.tuning (steps ++ step.toList) := by
  cases step with
  | none =>
      rw [after, Option.toList_none, List.append_nil, hState]
  | some step =>
      rw [Option.toList_some, SiteState.run_concat, ← hState]
      rfl

theorem Site.tuning_after
    (site : Site)
    (step : Option SiteStep) :
    (site.after step).tuning = site.tuning := by
  cases step <;> rfl

namespace Pool

variable {id : SiteId} {site : Site} {s s' : Pool} {j : Nat}

/-
  A site that went through some sections, of which those that
  count are as many as the calls that were started through it.
-/
def Serves
    (s : Pool)
    (id : SiteId)
    (tuning : Tuning) : Prop :=
  ∃ site steps,
    s.world.sites[id]? = some site ∧
      site.tuning = tuning ∧
      site.state = SiteState.run tuning steps ∧
      steps.countP SiteStep.isAccess +
          steps.countP SiteStep.isCold =
        s.starts.countP fun start => start.call.through id

theorem Serves.step
    {tuning : Tuning}
    (hServes : s.Serves id tuning)
    (j : Nat) :
    (s.step Phase.advance j).Serves id tuning := by
  rcases hServes with ⟨site, steps, hSite, rfl, hState, hCount⟩
  rcases move_step hSite j with ⟨started, step, hMoved⟩
  refine ⟨site.after step, steps ++ step.toList, hMoved.site,
    site.tuning_after step, Site.state_after hState step, ?_⟩
  have hMove := hMoved.move.count
  have hStarted :
      (started.toList.map (Start.mk j)).countP
          (fun start => start.call.through id) =
        started.toList.countP (Call.through id) :=
    List.countP_map
  rw [hMoved.starts, List.countP_append, List.countP_append,
    List.countP_append, hStarted]
  omega

theorem serves_run
    {tuning : Tuning}
    (hServes : s.Serves id tuning)
    (schedule : List Nat) :
    (s.run Phase.advance schedule).Serves id tuning := by
  induction schedule using List.reverseRecOn with
  | nil => exact hServes
  | append_singleton schedule j ih =>
      rw [run_concat]
      exact ih.step j

------------------------------------------------------------
-- Misses
------------------------------------------------------------

/- The keys that were looked up at a site, latest first. -/
def lookedUp
    (id : SiteId)
    (s : Pool) : List Key :=
  s.starts.filterMap fun start => start.call.key? id

/- The misses at a site, with the thread that missed. -/
def misses
    (id : SiteId)
    (s : Pool) : List (Nat × Key) :=
  s.starts.filterMap fun start =>
    (start.call.missed? id).map fun key => (start.thread, key)

/-
  No thread misses a key twice: a key that a thread missed is
  remembered, or the thread is about to remember it.
-/
structure MissesOnce
    (id : SiteId)
    (keys : List Key)
    (s : Pool)
    (site : Site) : Prop where
  there : s.world.sites[id]? = some site
  roomy : site.state.Roomy site.tuning keys
  pending : ∀ j key, s.pending? id j = some key → key ∈ keys
  held :
    ∀ j key, (j, key) ∈ s.misses id →
      key ∈ site.state.keys ∨ s.pending? id j = some key
  once : (s.misses id).Nodup
  count : site.state.misses = (s.misses id).length
  known :
    ∀ j key, (j, key) ∈ s.misses id →
      j < s.threads.length ∧ key ∈ keys

/- A step that starts no call that misses. -/
theorem misses_of_none
    {started : Option Call}
    (hStarts :
      s'.starts = started.toList.map (Start.mk j) ++ s.starts)
    (hMissed : ∀ call ∈ started, call.missed? id = none) :
    s'.misses id = s.misses id := by
  unfold misses
  rw [hStarts, List.filterMap_append]
  cases started with
  | none => rfl
  | some call => simp [hMissed call rfl]

namespace MissesOnce

variable {keys : List Key} {started : Option Call}
variable {taken : Option SiteStep}

/- A step that forgets no key, and starts no call that misses. -/
theorem of_moved
    (hOnce : s.MissesOnce id keys site)
    (hMoved : Moved id site j s s' started taken)
    (hRoomy :
      (site.after taken).state.Roomy (site.after taken).tuning keys)
    (hKept : site.state.keys ⊆ (site.after taken).state.keys)
    (hPending :
      ∀ key, s'.pending? id j = some key →
        s.pending? id j = some key)
    (hDone :
      ∀ key, s.pending? id j = some key →
        key ∈ (site.after taken).state.keys ∨
          s'.pending? id j = some key)
    (hMissed : ∀ call ∈ started, call.missed? id = none)
    (hCount : (site.after taken).state.misses = site.state.misses) :
    s'.MissesOnce id keys (site.after taken) := by
  have hMisses := misses_of_none hMoved.starts hMissed
  constructor
  · exact hMoved.site
  · exact hRoomy
  · intro k key hKey
    by_cases hSame : k = j
    · subst hSame
      exact hOnce.pending k key (hPending key hKey)
    · rw [hMoved.others k hSame] at hKey
      exact hOnce.pending k key hKey
  · intro k key hMem
    rw [hMisses] at hMem
    rcases hOnce.held k key hMem with hHeld | hStill
    · exact Or.inl (hKept hHeld)
    · by_cases hSame : k = j
      · subst hSame
        exact hDone key hStill
      · rw [hMoved.others k hSame]
        exact Or.inr hStill
  · rw [hMisses]
    exact hOnce.once
  · rw [hMisses, hCount]
    exact hOnce.count
  · intro k key hMem
    rw [hMisses] at hMem
    rw [hMoved.length]
    exact hOnce.known k key hMem

/- A miss of a thread: it has not missed the key before. -/
theorem of_miss
    (hOnce : s.MissesOnce id keys site)
    {call : Call}
    {key : Key}
    (hMoved :
      Moved id site j s s' (some call) (some (.access key)))
    (hMissed : call.missed? id = some key)
    (hFind : (site.state.find? key).isSome = false)
    (hBefore : s.pending? id j = none)
    (hAfter : s'.pending? id j = some key)
    (hMem : key ∈ keys)
    (hRoomy :
      (site.after (some (.access key))).state.Roomy
        (site.after (some (.access key))).tuning keys)
    (hKept :
      site.state.keys ⊆
        (site.after (some (.access key))).state.keys)
    (hCount :
      (site.after (some (.access key))).state.misses =
        site.state.misses + 1) :
    s'.MissesOnce id keys (site.after (some (.access key))) := by
  have hMisses : s'.misses id = (j, key) :: s.misses id := by
    unfold misses
    rw [hMoved.starts]
    simp [hMissed]
  have hNew : (j, key) ∉ s.misses id := by
    intro hOld
    rcases hOnce.held j key hOld with hHeld | hStill
    · have hFound := (site.state.find?_isSome key).mpr hHeld
      rw [hFind] at hFound
      cases hFound
    · rw [hBefore] at hStill
      cases hStill
  constructor
  · exact hMoved.site
  · exact hRoomy
  · intro k other hKey
    by_cases hSame : k = j
    · subst hSame
      rw [hAfter] at hKey
      cases hKey
      exact hMem
    · rw [hMoved.others k hSame] at hKey
      exact hOnce.pending k other hKey
  · intro k other hOther
    rw [hMisses] at hOther
    rcases List.mem_cons.mp hOther with hFirst | hOld
    · cases hFirst
      exact Or.inr hAfter
    · rcases hOnce.held k other hOld with hHeld | hStill
      · exact Or.inl (hKept hHeld)
      · by_cases hSame : k = j
        · subst hSame
          rw [hBefore] at hStill
          cases hStill
        · rw [hMoved.others k hSame]
          exact Or.inr hStill
  · rw [hMisses]
    exact List.nodup_cons.mpr ⟨hNew, hOnce.once⟩
  · rw [hMisses, hCount, hOnce.count, List.length_cons]
  · intro k other hOther
    rw [hMisses] at hOther
    rw [hMoved.length]
    rcases List.mem_cons.mp hOther with hFirst | hOld
    · cases hFirst
      exact ⟨hMoved.known call rfl, hMem⟩
    · exact hOnce.known k other hOld

/- Every step keeps threads from missing a key twice. -/
theorem step
    (hOnce : s.MissesOnce id keys site)
    (j : Nat)
    (hKeys : (s.step Phase.advance j).lookedUp id ⊆ keys) :
    ∃ site', (s.step Phase.advance j).MissesOnce id keys site' := by
  rcases move_step hOnce.there j with ⟨started, taken, hMoved⟩
  refine ⟨site.after taken, ?_⟩
  have hMove := hMoved.move
  generalize hBefore : s.pending? id j = before at hMove
  generalize hAfter :
    (s.step Phase.advance j).pending? id j = after at hMove
  cases hMove with
  | aside started pending hAside =>
      apply hOnce.of_moved hMoved hOnce.roomy
        (List.Subset.refl _)
      · intro key hKey
        rw [hBefore, ← hAfter, hKey]
      · intro key hKey
        rw [hAfter, ← hBefore, hKey]
        exact Or.inr rfl
      · intro call hCall
        exact Call.missed?_of_key?_none
          (Call.key?_of_aside (hAside call hCall))
      · rfl
  | cold call hThrough hKey =>
      apply hOnce.of_moved hMoved _ (List.Subset.refl _)
      · intro key hPending
        rw [hAfter] at hPending
        cases hPending
      · intro key hPending
        rw [hBefore] at hPending
        cases hPending
      · intro other hCall
        cases hCall
        exact Call.missed?_of_key?_none hKey
      · rfl
      · exact { hOnce.roomy with
          balanced := hOnce.roomy.balanced.step .cold }
  | hit call key hThrough hKey hMissed hFind =>
      have hTally := site.state.tally_access site.tuning key
      rw [if_pos hFind] at hTally
      simp only [SiteState.tally, Prod.mk.injEq] at hTally
      apply hOnce.of_moved hMoved (hOnce.roomy.access key)
        (hOnce.roomy.keys_access key)
      · intro other hPending
        rw [hAfter] at hPending
        cases hPending
      · intro other hPending
        rw [hBefore] at hPending
        cases hPending
      · intro other hCall
        cases hCall
        exact hMissed
      · exact hTally.2.1
  | miss call key hThrough hKey hMissed hFind =>
      have hTally := site.state.tally_access site.tuning key
      rw [if_neg (Bool.eq_false_iff.mp hFind)] at hTally
      simp only [SiteState.tally, Prod.mk.injEq] at hTally
      have hMem : key ∈ keys := by
        apply hKeys
        unfold lookedUp
        rw [hMoved.starts]
        simp [hKey]
      exact hOnce.of_miss hMoved hMissed hFind hBefore hAfter hMem
        (hOnce.roomy.access key) (hOnce.roomy.keys_access key)
        hTally.2.1
  | insert entry =>
      have hMem := hOnce.pending j entry.key hBefore
      have hKept := hOnce.roomy.keys_insert hMem
      have hTally := site.state.tally_insert entry
      simp only [SiteState.tally, Prod.mk.injEq] at hTally
      apply hOnce.of_moved hMoved (hOnce.roomy.insert hMem)
        (List.cons_subset.mp hKept).2
      · intro key hPending
        rw [hAfter] at hPending
        cases hPending
      · intro key hPending
        rw [hBefore] at hPending
        cases hPending
        exact Or.inl (List.cons_subset.mp hKept).1
      · intro call hNone
        cases hNone
      · exact hTally.2.1

/- So there are no more misses than threads times keys. -/
theorem length_misses_le
    (hOnce : s.MissesOnce id keys site) :
    (s.misses id).length ≤
      s.threads.length * keys.eraseDups.length := by
  have hAmong :
      s.misses id ⊆
        List.range s.threads.length ×ˢ keys.eraseDups := by
    rintro ⟨k, key⟩ hMem
    have hKnown := hOnce.known k key hMem
    exact List.mem_product.mpr
      ⟨List.mem_range.mpr hKnown.1, List.mem_eraseDups.mpr hKnown.2⟩
  have hLength :=
    (List.subperm_of_subset hOnce.once hAmong).length_le
  rwa [List.length_product, List.length_range] at hLength

end MissesOnce

/- A site with room for all keys is missed once by a thread. -/
theorem missesOnce_run
    {keys : List Key}
    (hOnce : s.MissesOnce id keys site)
    (schedule : List Nat)
    (hKeys : (s.run Phase.advance schedule).lookedUp id ⊆ keys) :
    ∃ site',
      (s.run Phase.advance schedule).MissesOnce id keys site' := by
  induction schedule using List.reverseRecOn with
  | nil => exact ⟨site, hOnce⟩
  | append_singleton schedule j ih =>
      rw [run_concat] at hKeys ⊢
      have hEarlier :
          (s.run Phase.advance schedule).lookedUp id ⊆ keys := by
        have hSince :=
          continues_step Phase.advance
            (s.run Phase.advance schedule) j
        exact fun key hMem =>
          hKeys (List.filterMap_subset _ hSince.starts hMem)
      rcases ih hEarlier with ⟨site', hSoFar⟩
      exact hSoFar.step j hKeys

end Pool

end RegisterVM
