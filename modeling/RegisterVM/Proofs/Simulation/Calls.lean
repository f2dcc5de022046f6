import Mathlib.Algebra.GroupWithZero.Nat
import RegisterVM.Proofs.Simulation.Setup
import RegisterVM.Proofs.Workspace.Resolutions

/-
  The calls of a simulation. Each call goes on a receiver that
  answers with its number, through the one site of the simulated
  function. It leaves the classes alone and counts once at the
  site, so after any number of calls the counters of the site, the
  lookups by name, the questions put to the policy and the checksum
  are known from the numbers of the receivers.

  Key definitions include:
    * `SiteState.Counted`
    * `SiteState.Tallied`
    * `Simulation.Served`
    * `Simulation.HasSite`
    * `Simulation.Ran`

  Key theorems include:
    * `Simulation.Answers.served`
    * `Simulation.HasSite.siteFor`
    * `Simulation.step_eq`
    * `Simulation.Ran.step`
    * `Simulation.Ran.calls`
-/

namespace RegisterVM

------------------------------------------------------------
-- Counters Of A Site
------------------------------------------------------------

/-
  What a call adds to the counters of its site. It is a hit, a miss
  or, at a disabled site, a cold call, and it makes a lookup by name
  unless it is a hit.
-/
structure SiteState.Counted
    (t : Tuning)
    (key : Key)
    (before after : SiteState)
    (lookups : Nat) : Prop where
  visits :
    Visits t before
      (if t.enabled then [⟨key, before, after⟩] else []) after
  total :
    after.hits + after.misses + after.cold =
      before.hits + before.misses + before.cold + 1
  cold :
    after.cold = before.cold + if t.enabled then 0 else 1
  lookups :
    after.misses + after.cold =
      before.misses + before.cold + lookups

namespace SiteState

theorem counted_coldCall
    {t : Tuning}
    (hDisabled : t.enabled = false)
    (key : Key)
    (s : SiteState) :
    Counted t key s s.coldCall 1 where
  visits := by
    rw [hDisabled]
    exact .cold (.nil _)
  total := rfl
  cold := by
    rw [hDisabled]
    rfl
  lookups := rfl

theorem counted_visit
    {t : Tuning}
    (hEnabled : t.enabled = true)
    (key : Key)
    (route : Route)
    (s : SiteState) :
    Counted t key s (s.visit t key route)
      (if (s.find? key).isSome then 0 else 1) := by
  have hTally := s.tally_visit t key route
  have hVisits :
      Visits t s
        (if t.enabled then [⟨key, s, s.visit t key route⟩] else [])
        (s.visit t key route) := by
    rw [hEnabled]
    exact .visit route (.nil _)
  split at hTally
  next hHit =>
    simp only [tally, Prod.mk.injEq] at hTally
    rw [if_pos hHit]
    refine ⟨hVisits, ?_, ?_, ?_⟩
    · omega
    · simp only [hEnabled, if_true]
      omega
    · omega
  next hMiss =>
    simp only [tally, Prod.mk.injEq] at hTally
    rw [if_neg hMiss]
    refine ⟨hVisits, ?_, ?_, ?_⟩
    · omega
    · simp only [hEnabled, if_true]
      omega
    · omega

/-
  The counters of a site that started afresh and was called with
  some keys, in order.
-/
structure Tallied
    (t : Tuning)
    (keys : List Key)
    (s : SiteState) : Prop where
  total : s.hits + s.misses + s.cold = keys.length
  cold : s.cold = if t.enabled then 0 else keys.length
  visits :
    ∃ visits, Visits t (.fresh t) visits s ∧
      visits.map Visit.key = if t.enabled then keys else []

theorem tallied_fresh
    (t : Tuning) :
    Tallied t [] (.fresh t) where
  total := rfl
  cold := by
    split <;> rfl
  visits := by
    refine ⟨[], .nil _, ?_⟩
    split <;> rfl

/- One more call. -/
theorem Tallied.counted
    {t : Tuning}
    {keys : List Key}
    {s s' : SiteState}
    (hTallied : Tallied t keys s)
    {key : Key}
    {lookups : Nat}
    (hCounted : Counted t key s s' lookups) :
    Tallied t (keys ++ [key]) s' := by
  have hLength : (keys ++ [key]).length = keys.length + 1 := by
    simp
  have hTotal := hTallied.total
  have hMore := hCounted.total
  have hCold := hTallied.cold
  have hColder := hCounted.cold
  rcases hTallied.visits with ⟨visits, hVisits, hKeys⟩
  have hNext := hVisits.append hCounted.visits
  refine ⟨by omega, ?_, _, hNext, ?_⟩
  · rw [hColder, hCold, hLength]
    split <;> rfl
  · rw [List.map_append, hKeys]
    split <;> rfl

end SiteState

namespace Simulation

------------------------------------------------------------
-- One Call Through A Site
------------------------------------------------------------

/- The key of the receiver with a number. -/
def keyOf
    (heap : Heap)
    (number : Nat) : Key :=
  ⟨false, number + 1, heap.version (number + 1)⟩

/-
  What a call leaves behind: the classes as they were, one more
  question to the policy, and the counters of its site.
-/
structure Served
    (m : Machine)
    (place : SiteId)
    (site : Site)
    (key : Key)
    (m' : Machine)
    (state : SiteState) : Prop where
  coherent : m'.Coherent
  heap : m'.world.heap.bare = m.world.heap.bare
  policy : m'.context.policy = m.context.policy
  accessChecks :
    m'.context.stats.accessChecks =
      m.context.stats.accessChecks + 1
  sites : m'.world.sites = m.world.withState place state
  counted :
    ∃ lookups, m'.resolutions = m.resolutions + lookups ∧
      SiteState.Counted site.tuning key site.state state lookups

section Calls

variable {m : Machine} {place : SiteId} {site : Site}
  {receiver : Value} {number : Nat}

/- The call is permitted, and leads to the method of the class. -/
theorem Answers.verdict
    (hAnswers : Answers m.world.heap receiver number)
    (hPolicy : m.context.policy = .standard) :
    ∃ ident query,
      m.verdict receiver method =
        ⟨some query,
          .ok
            ⟨ident, method,
              .const (.int (Int64.ofNat number))⟩⟩ := by
  rcases hAnswers.receiver with ⟨object, rfl⟩
  rcases hAnswers.nearest? with ⟨ident, hNearest⟩
  let query : Query :=
    ⟨.everyone, number + 1, m.context.caller, method⟩
  have hPermits : m.permits query = true := by
    rw [Machine.permits, hPolicy]
    rfl
  refine ⟨ident, query, ?_⟩
  simp only [Machine.verdict, hNearest]
  rw [if_pos hPermits]

theorem Answers.key?
    {heap : Heap}
    (hAnswers : Answers heap receiver number) :
    heap.key? receiver = some (keyOf heap number) := by
  rcases hAnswers.receiver with ⟨object, rfl⟩
  rfl

theorem Answers.not_abstract
    {heap : Heap}
    (hAnswers : Answers heap receiver number) :
    heap.isAbstract receiver method = false := by
  rcases hAnswers.receiver with ⟨object, rfl⟩
  rcases hAnswers.nearest? with ⟨ident, hNearest⟩
  simp only [Heap.isAbstract, hNearest]
  rfl

/- The site after a call, and the lookups that the call made. -/
theorem Answers.counted
    (hMachine : m.Coherent)
    (hSite : m.world.sites[place]? = some site)
    (hName : site.name = method)
    (hAnswers : Answers m.world.heap receiver number)
    (args : List Value) :
    let m' := (Call.landing ⟨.site place receiver args, m⟩).2
    ∃ state lookups,
      m'.world.sites = m.world.withState place state ∧
        m'.resolutions = m.resolutions + lookups ∧
        SiteState.Counted site.tuning (keyOf m.world.heap number)
          site.state state lookups := by
  intro m'
  have hLanding :
      m' = ((invokeSite .arrive place receiver args).run m).2 :=
    snd_landing _ m
  have hSites := sites_invokeSite hSite receiver args
  rw [← hLanding] at hSites
  have hResolves :=
    Call.resolves_of_coherent hMachine hSite receiver args
  let key := keyOf m.world.heap number
  have hKey :
      site.key? m.world.heap receiver =
        if site.tuning.enabled then some key else none := by
    rw [Site.key?, hAnswers.key?]
  cases hEnabled : site.tuning.enabled with
  | false =>
      rw [hEnabled] at hKey
      have hMembers : receiver.hasMembers = true := by
        rcases hAnswers.receiver with ⟨object, rfl⟩
        rfl
      simp only [Site.finding, hKey] at hSites hResolves
      simp only [Call.Resolves, Dispatch.receiver, hMembers]
        at hResolves
      exact ⟨_, 1, hSites, hResolves,
        SiteState.counted_coldCall hEnabled key site.state⟩
  | true =>
      rw [hEnabled] at hKey
      have hConcrete :
          m.world.heap.isAbstract receiver site.name = false := by
        rw [hName]
        exact hAnswers.not_abstract
      simp only [Site.finding, hKey, if_true, SiteState.lookup]
        at hSites hResolves
      rcases hSites with ⟨route, hSites⟩
      refine ⟨_, _, hSites, ?_,
        SiteState.counted_visit hEnabled key route site.state⟩
      cases hFind : site.state.find? key with
      | none =>
          simp only [hFind, Call.Resolves, Dispatch.receiver,
            hConcrete] at hResolves
          exact hResolves.1
      | some entry =>
          simp only [hFind, Call.Resolves, Dispatch.receiver,
            hConcrete] at hResolves
          exact hResolves.1

/- A call on a receiver that answers yields its number. -/
theorem Answers.served
    (hMachine : m.Coherent)
    (hSite : m.world.sites[place]? = some site)
    (hName : site.name = method)
    (hPolicy : m.context.policy = .standard)
    (hAnswers : Answers m.world.heap receiver number)
    (args : List Value) :
    ∃ m' state,
      (invokeSite runner place receiver args).run m =
          (.ok (.int (Int64.ofNat number)), m') ∧
        Served m place site (keyOf m.world.heap number) m'
          state := by
  let call : Call := ⟨.site place receiver args, m⟩
  rcases hAnswers.verdict hPolicy with ⟨ident, query, hVerdict⟩
  have hAgree :=
    (invokeSite_agree Runner.steady_arrive hMachine hSite receiver
      args).trans
      (invokeMethod_verdict hMachine receiver site.name args)
  rw [hName, hVerdict] at hAgree
  have hLanding := landing_of_agree call.dispatch.action hAgree
  have hEnd :
      call.landing =
        (.ok
            ⟨ident, method, .const (.int (Int64.ofNat number))⟩,
          call.landing.2) :=
    Prod.ext hLanding.1 rfl
  have hRuns :=
    (call.dispatch.forwards runner m).trans
      (congrArg (enter runner receiver args) hEnd)
  have hOutline := hLanding.2.outline
  rcases hAnswers.counted hMachine hSite hName args with
    ⟨state, lookups, hSites, hLookups, hCounted⟩
  exact ⟨call.landing.2, state, hRuns,
    { coherent := hLanding.2.left
      heap := congrArg Outline.heap hOutline
      policy := congrArg Outline.policy hOutline
      accessChecks := congrArg Outline.accessChecks hOutline
      sites := hSites
      counted := ⟨lookups, hLookups, hCounted⟩ }⟩

end Calls

------------------------------------------------------------
-- One Call Of The Function
------------------------------------------------------------

/-
  The site of the call is made by the first call. Until then the
  function has none, and after it this one, in some state.
-/
def HasSite
    (tuning : Tuning)
    (called : Bool)
    (s : CallState)
    (state : SiteState) : Prop :=
  if called then
    s.function = { simulated tuning with sites := [(0, 0)] } ∧
      s.machine.world.sites = #[⟨method, tuning, state⟩]
  else
    s.function = simulated tuning ∧
      s.machine.world.sites = #[] ∧ state = .fresh tuning

/- A call finds the site or makes it, in the state that it has. -/
theorem HasSite.siteFor
    {tuning : Tuning}
    {called : Bool}
    {s : CallState}
    {state : SiteState}
    (hSite : HasSite tuning called s state)
    (hMachine : s.machine.Coherent) :
    ∃ world : World,
      s.function.siteFor s.machine.world instr =
          .ok
            (0, { simulated tuning with sites := [(0, 0)] },
              world) ∧
        world.sites = #[⟨method, tuning, state⟩] ∧
        world.heap = s.machine.world.heap ∧
        Machine.Coherent ⟨world, s.machine.context⟩ := by
  rcases s with ⟨function, frame, world, context⟩
  cases called with
  | true =>
      rcases hSite with ⟨rfl, hSites⟩
      exact ⟨world, rfl, hSites, rfl, hMachine⟩
  | false =>
      rcases hSite with ⟨rfl, hSites, rfl⟩
      have hPlace : world.sites.size = 0 := by
        rw [hSites]
        rfl
      refine ⟨(world.newSite method tuning).2, ?_, ?_, rfl,
        hMachine.newSite method tuning⟩
      · show
          Except.ok
              ((world.newSite method tuning).1,
                { simulated tuning with
                  sites :=
                    Function.insertSite 0
                      (world.newSite method tuning).1 [] },
                (world.newSite method tuning).2) = _
        rw [World.newSite, hPlace]
        rfl
      · show world.sites.push _ = _
        rw [hSites]
        rfl

/- A slot that was changed. -/
theorem getElem?_modify_self
    {slots : Array Slot}
    {i : Nat}
    (hBound : i < slots.size)
    (change : Slot → Slot) :
    ∃ slot, (slots.modify i change)[i]? = some (change slot) := by
  refine ⟨slots[i], ?_⟩
  rw [Array.getElem?_modify, if_pos rfl,
    Array.getElem?_eq_getElem hBound]
  rfl

/-
  The call instruction reads slot 0, calls through the site without
  arguments, and stores the result in slot 2.
-/
theorem callVirtual_eq
    {s : CallState}
    {place : SiteId}
    {function : Function}
    {world : World}
    (hSiteFor :
      s.function.siteFor s.machine.world instr =
        .ok (place, function, world))
    (hSlots : s.frame.slots.size = 3)
    {receiver : Value}
    (hReceiver : s.frame.load? 0 = some receiver)
    {value : Value}
    {m : Machine}
    (hCall :
      (invokeSite runner place receiver []).run
          ⟨world, s.machine.context⟩ =
        (.ok value, m)) :
    Function.callVirtual runner instr s =
      (.ok (),
        { function
          frame :=
            { s.frame with
              slots :=
                s.frame.slots.modify 2 fun slot =>
                  slot.store value }
          machine := m }) := by
  have hWithin :
      Function.CallSlots.within ⟨0, 1, 0, 2⟩ s.frame = true := by
    simp [Function.CallSlots.within, Frame.slotCount, hSlots]
  have hStore :
      s.frame.store? 2 value =
        some
          { s.frame with
            slots :=
              s.frame.slots.modify 2 fun slot =>
                slot.store value } :=
    if_pos (by omega)
  have hCallSlots :
      Function.callSlots instr = .ok ⟨0, 1, 0, 2⟩ :=
    rfl
  have hArgs : s.frame.collect? 1 0 = some [] := rfl
  unfold Function.callVirtual
  simp only [hSiteFor, hCallSlots, hWithin, if_true, hReceiver,
    hArgs, Option.getD_some, hCall, hStore]

------------------------------------------------------------
-- Runs Of Calls
------------------------------------------------------------

/-
  How far a simulation is after calls on the receivers with some
  numbers, in order.
-/
structure Ran
    (tuning : Tuning)
    (start : Heap)
    (picks : List Nat)
    (progress : Progress) : Prop where
  coherent : progress.state.machine.Coherent
  heap : progress.state.machine.world.heap.bare = start.bare
  policy : progress.state.machine.context.policy = .standard
  slots : progress.state.frame.slots.size = 3
  checksum : progress.checksum = Int64.ofNat picks.sum
  accessChecks :
    progress.state.machine.context.stats.accessChecks =
      picks.length
  site :
    ∃ state,
      HasSite tuning (!picks.isEmpty) progress.state state ∧
        SiteState.Tallied tuning (picks.map (keyOf start)) state ∧
        progress.state.machine.resolutions =
          state.misses + state.cold

/-
  One step of a simulation puts the receiver into slot 0, calls,
  and adds the number in slot 2 to the checksum.
-/
theorem step_eq
    {progress : Progress}
    (hSlots : progress.state.frame.slots.size = 3)
    {place : SiteId}
    {function : Function}
    {world : World}
    (hSiteFor :
      progress.state.function.siteFor
          progress.state.machine.world instr =
        .ok (place, function, world))
    {receiver : Value}
    {number : Int64}
    {m : Machine}
    (hCall :
      (invokeSite runner place receiver []).run
          ⟨world, progress.state.machine.context⟩ =
        (.ok (.int number), m)) :
    ∃ frame : Frame, frame.slots.size = 3 ∧
      Simulation.step instr progress receiver =
        .ok
          { state := { function, frame, machine := m }
            checksum := progress.checksum + number } := by
  let s := progress.state
  let loaded : Frame :=
    { s.frame with
      slots :=
        s.frame.slots.modify 0 fun slot =>
          slot.setObject receiver }
  have hLoaded :
      (s.frame.modify? 0 fun slot => slot.setObject receiver) =
        some loaded := by
    apply if_pos
    rw [hSlots]
    decide
  have hSize : loaded.slots.size = 3 :=
    Array.size_modify.trans hSlots
  have hReceiver : loaded.load? 0 = some receiver := by
    rcases getElem?_modify_self (i := 0)
        (by rw [hSlots]; decide)
        (fun slot => slot.setObject receiver) with
      ⟨slot, hSlot⟩
    rw [Frame.load?, hSlot]
    rfl
  have hVirtual :=
    callVirtual_eq (s := { s with frame := loaded }) hSiteFor
      hSize hReceiver hCall
  rcases getElem?_modify_self (i := 2)
      (by rw [hSize]; decide)
      (fun slot => slot.store (.int number)) with
    ⟨slot, hResult⟩
  let stored : Frame :=
    { loaded with
      slots :=
        loaded.slots.modify 2 fun slot => slot.store (.int number) }
  refine ⟨stored, Array.size_modify.trans hSize, ?_⟩
  unfold Simulation.step
  simp only [s] at hLoaded hVirtual
  simp only [hLoaded, Option.getD_some, hVirtual, hResult]
  rfl

/- One more call. -/
theorem Ran.step
    {tuning : Tuning}
    {start : Heap}
    {picks : List Nat}
    {progress : Progress}
    (hRan : Ran tuning start picks progress)
    {receiver : Value}
    {number : Nat}
    (hAnswers : Answers start receiver number) :
    ∃ progress',
      Simulation.step instr progress receiver = .ok progress' ∧
        Ran tuning start (picks ++ [number]) progress' := by
  rcases hRan.site with ⟨state, hSite, hTallied, hResolutions⟩
  rcases hSite.siteFor hRan.coherent with
    ⟨world, hSiteFor, hSites, hHeap, hCoherent⟩
  have hHere : world.sites[0]? = some ⟨method, tuning, state⟩ := by
    rw [hSites]
    rfl
  have hBare : world.heap.bare = start.bare := by
    rw [hHeap, hRan.heap]
  rcases (hAnswers.of_bare_eq hBare).served hCoherent hHere rfl
      hRan.policy [] with
    ⟨m', state', hCall, hServed⟩
  rcases step_eq hRan.slots hSiteFor hCall with
    ⟨frame', hSlots, hStep⟩
  rcases hServed.counted with ⟨lookups, hLookups, hCounted⟩
  have hKey : keyOf world.heap number = keyOf start number := by
    have hSame := Heap.SameLayout.of_bare_eq hBare (number + 1)
    rw [keyOf, keyOf, hSame.version]
  have hAfter :
      m'.world.sites = #[⟨method, tuning, state'⟩] := by
    rw [hServed.sites, World.withState, World.modifySite]
    dsimp only
    rw [hSites]
    rfl
  have hNext :
      SiteState.Tallied tuning
        ((picks ++ [number]).map (keyOf start)) state' := by
    rw [List.map_append]
    exact hTallied.counted (hKey ▸ hCounted)
  have hSum :
      progress.checksum + Int64.ofNat number =
        Int64.ofNat (picks ++ [number]).sum := by
    rw [hRan.checksum, ← Int64.ofNat_add, List.sum_append,
      List.sum_singleton]
  have hChecks :
      m'.context.stats.accessChecks =
        (picks ++ [number]).length := by
    rw [hServed.accessChecks, List.length_append]
    exact congrArg (· + 1) hRan.accessChecks
  have hMade :
      m'.resolutions = state'.misses + state'.cold := by
    rw [hLookups, hCounted.lookups]
    exact congrArg (· + lookups) hResolutions
  have hCalled : (!(picks ++ [number]).isEmpty) = true := by
    simp
  refine ⟨_, hStep, ?_⟩
  exact
    { coherent := hServed.coherent
      heap := hServed.heap.trans hBare
      policy := hServed.policy.trans hRan.policy
      slots := hSlots
      checksum := hSum
      accessChecks := hChecks
      site := by
        refine ⟨state', ?_, hNext, hMade⟩
        rw [hCalled]
        exact ⟨rfl, hAfter⟩ }

/- The calls of a pattern, one after the other. -/
theorem Ran.calls
    {sim : Simulation}
    {values : Array Value}
    {heap : Heap}
    (hMade : Made sim.classes values heap)
    (hClasses : 1 ≤ sim.classes)
    {start : Progress}
    (hStart : Ran sim.tuning heap [] start) :
    ∃ progress,
      sim.callAll instr values start = .ok progress ∧
        Ran sim.tuning heap
          ((List.range sim.calls).map
            (sim.pattern.pick sim.classes))
          progress := by
  unfold callAll
  induction sim.calls with
  | zero => exact ⟨start, rfl, hStart⟩
  | succ calls ih =>
      rcases ih with ⟨progress, hSoFar, hRan⟩
      have hPick := sim.pattern.pick_lt hClasses calls
      rcases hMade.answers _ hPick with
        ⟨receiver, hReceiver, hAnswers⟩
      rcases hRan.step hAnswers with ⟨progress', hStep, hNext⟩
      refine ⟨progress', ?_, ?_⟩
      · rw [List.range_succ, List.foldlM_append, hSoFar]
        simp only [bind, Except.bind, List.foldlM_cons, hReceiver,
          Option.getD_some, hStep]
        rfl
      · rw [List.range_succ, List.map_append]
        exact hNext

end Simulation

end RegisterVM
