import RegisterVM.Proofs.Concurrency.ByName
import RegisterVM.Proofs.Concurrency.Sections
import RegisterVM.Proofs.Workspace.Scripts

/-
  Threads that share a fresh site, in any world that a script leads
  to. However their steps are interleaved, calls get the answers of
  calls by name, the site counts every call that was started, and
  it remembers no key twice. If it has room for all keys that are
  looked up, each thread misses a key at most once, although others
  may miss and remember the same key in between.

  Key definitions include:
    * `Pool.opening`

  Key theorems include:
    * `Pool.answers_by_name`
    * `Script.threads_share_site`
-/

namespace RegisterVM

------------------------------------------------------------
-- Threads That Start Out
------------------------------------------------------------

theorem World.site_newSite
    (world : World)
    (name : String)
    (tuning : Tuning) :
    (world.newSite name tuning).2.sites[world.sites.size]? =
      some (.new name tuning) :=
  Array.getElem?_push_size

namespace Pool

/- Threads that start out on a world, each in its own context. -/
def opening
    (world : World)
    (threads : List (Context × Routine)) : Pool where
  world
  threads := threads.map fun (context, now) => { context, now }

variable {world : World} {threads : List (Context × Routine)}

theorem of_mem_opening
    {t : Thread}
    (hMem : t ∈ (opening world threads).threads) :
    ∃ context now,
      (context, now) ∈ threads ∧ t = { context, now } := by
  rcases List.mem_map.mp hMem with ⟨⟨context, now⟩, hFirst, rfl⟩
  exact ⟨context, now, hFirst, rfl⟩

theorem length_opening :
    (opening world threads).threads.length = threads.length :=
  List.length_map _

/- No thread is about to remember a key. -/
theorem pending?_opening
    (id : SiteId)
    (j : Nat) :
    (opening world threads).pending? id j = none := by
  unfold pending?
  cases hThread : (opening world threads).threads[j]? with
  | none => rfl
  | some t =>
      rcases of_mem_opening (List.mem_of_getElem? hThread) with
        ⟨context, now, _, rfl⟩
      exact Thread.pending?_ready id context [] now

theorem serves_opening
    (threads : List (Context × Routine))
    (world : World)
    (name : String)
    (tuning : Tuning) :
    (opening (world.newSite name tuning).2 threads).Serves
      world.sites.size tuning :=
  ⟨.new name tuning, [], world.site_newSite name tuning, rfl, rfl, rfl⟩

theorem missesOnce_opening
    (threads : List (Context × Routine))
    (world : World)
    (name : String)
    (tuning : Tuning)
    {keys : List Key}
    (hFew : keys.eraseDups.length ≤ tuning.initialEntries) :
    (opening (world.newSite name tuning).2 threads).MissesOnce
      world.sites.size keys (.new name tuning) where
  there := world.site_newSite name tuning
  roomy := ⟨.fresh tuning, List.nil_subset _, hFew⟩
  pending j key hKey := by
    rw [pending?_opening] at hKey
    cases hKey
  held := nofun
  once := List.nodup_nil
  count := rfl
  known := nofun

/-
  While no class changes, and calls are made on values whose
  classes are there, calls land where calls by name do, and threads
  get the answers of threads that call by name and take the same
  steps but for those at sites.
-/
theorem answers_by_name
    (hCoherent : ∀ context, Machine.Coherent ⟨world, context⟩)
    (hDiscreet :
      ∀ context now, (context, now) ∈ threads → now.Discreet)
    (schedule : List Nat)
    (hHeld :
      ∀ start ∈
          ((opening world threads).run Phase.advance schedule).starts,
        start.call.machine.world.heap.Holds
          start.call.dispatch.receiver)
    (hStill :
      ∀ change ∈
          ((opening world threads).run Phase.advance
            schedule).changes,
        ∀ cls, ¬ change.step.Mutates change.heap cls) :
    ((opening world threads).run Phase.advance
        schedule).LandsByName ∧
      ∃ schedule',
        schedule'.Sublist schedule ∧
          ((opening world threads).run Phase.advance
              schedule).answers =
            ((opening world threads).run Phase.advanceByName
              schedule').answers := by
  have hSelf :
      (opening world threads).Matches (opening world threads) := by
    apply matches_self
    · exact fun t _ => hCoherent t.context
    · intro t hMem
      rcases of_mem_opening hMem with ⟨context, now, _, rfl⟩
      rfl
    · intro t hMem
      rcases of_mem_opening hMem with ⟨context, now, hFirst, rfl⟩
      exact ⟨hDiscreet context now hFirst, nofun⟩
  rcases exists_matches_run hSelf schedule hHeld hStill with
    ⟨schedule', hSub, hMatches⟩
  exact ⟨hMatches.landsByName, schedule', hSub, hMatches.answers⟩

end Pool

------------------------------------------------------------
-- A Shared Site
------------------------------------------------------------

namespace Script

/-
  Threads share a fresh site of a world that a script leads to, and
  take their steps in any order. While no class changes, all calls
  land where calls by name do and get their answers, and every
  thread can go on to its end from wherever it is. The site counts
  every call through it once, as a hit, a miss or a cold call, and
  has no two entries of one key. And if it has room for all keys
  that are looked up at it, no thread misses a key twice, so there
  are no more misses than threads times keys.
-/
theorem threads_share_site
    (script : Script)
    (bodies : Bodies)
    (tunings : SiteId → Tuning)
    (steps : Nat)
    (world : World)
    (hWorld :
      world = (script.run bodies.runner tunings steps).2.world)
    (name : String)
    (tuning : Tuning)
    (threads : List (Context × Routine))
    (schedule : List Nat)
    (s s' : Pool)
    (hOpening :
      s = .opening (world.newSite name tuning).2 threads)
    (hEnd : s' = s.run Phase.advance schedule) :
    ((∀ context now, (context, now) ∈ threads → now.Discreet) →
      (∀ start ∈ s'.starts,
        start.call.machine.world.heap.Holds
          start.call.dispatch.receiver) →
      (∀ change ∈ s'.changes, ∀ cls,
        ¬ change.step.Mutates change.heap cls) →
      s'.LandsByName ∧
        ∃ schedule', schedule'.Sublist schedule ∧
          s'.answers =
            (s.run Phase.advanceByName schedule').answers) ∧
      (∀ j < threads.length, s'.Reaches j (Pool.Finished j)) ∧
      ∃ site, s'.world.sites[world.sites.size]? = some site ∧
        site.state.hits + site.state.misses + site.state.cold =
          (s'.starts.countP fun start =>
            start.call.through world.sites.size) ∧
        (site.state.entries.map Entry.key).Nodup ∧
        ((s'.lookedUp world.sites.size).eraseDups.length ≤
            tuning.initialEntries →
          (s'.misses world.sites.size).Nodup ∧
            site.state.misses =
              (s'.misses world.sites.size).length ∧
            site.state.misses ≤
              threads.length *
                (s'.lookedUp world.sites.size).eraseDups.length) := by
  subst hOpening
  subst hEnd
  refine ⟨?_, ?_, ?_⟩
  · intro hDiscreet hHeld hStill
    have hNative : bodies.runner.Native false :=
      bodies.native_runner nofun
    have hCoherent :
        ∀ context,
          Machine.Coherent
            ⟨(world.newSite name tuning).2, context⟩ := by
      intro context
      rw [hWorld]
      exact (coherent_run hNative script tunings steps
        context).newSite name tuning
    exact Pool.answers_by_name hCoherent hDiscreet schedule hHeld
      hStill
  · intro j hThread
    rw [← Pool.length_opening, ← Pool.length_threads_run] at hThread
    exact Pool.reaches_finished (List.getElem?_eq_getElem hThread)
  · rcases Pool.serves_run
        (Pool.serves_opening threads world name tuning)
        schedule with ⟨site, sections, hSite, _, hState, hCount⟩
    have hTally := SiteState.tally_run tuning sections
    have hBalanced := SiteState.balanced_run tuning sections
    rw [← hState] at hTally hBalanced
    refine ⟨site, hSite, ?_, hBalanced.distinct, ?_⟩
    · rw [hTally.1, hTally.2]
      exact hCount
    · intro hFew
      rcases Pool.missesOnce_run
          (Pool.missesOnce_opening threads world name tuning hFew)
          schedule (List.Subset.refl _) with ⟨other, hOnce⟩
      have hSame : site = other := by
        have hThere := hOnce.there
        rw [hSite] at hThere
        exact Option.some.inj hThere
      subst hSame
      have hLength := hOnce.length_misses_le
      rw [Pool.length_threads_run, Pool.length_opening] at hLength
      refine ⟨hOnce.once, hOnce.count, ?_⟩
      rw [hOnce.count]
      exact hLength

/-
  Two threads that race for one key: both miss it, both remember
  it, and a later call hits. There is one entry, and there are as
  many misses as threads.
-/
theorem threads_share_site_of_race :
    let bodies : Bodies := fun callable _ _ =>
      .done (.ok (.str callable.name))
    let script : Script := fun moments =>
      match moments.length with
      | 0 => .newClass "Point" "Point" none
      | _ => .define 1 "norm" .everyone (some ⟨0, "norm", .argc⟩)
    let world := (script.run bodies.runner (fun _ => {}) 2).2.world
    let call : Dispatch := .site 0 (.inst ⟨0, 1⟩) []
    let s : Pool :=
      .opening (world.newSite "norm" {}).2
        [({}, .call bodies call fun _ => .call bodies call .done),
          ({}, .call bodies call .done)]
    let schedule := [0, 1, 0, 1, 0, 1, 0, 1, 0, 1, 0, 0, 0]
    let s' := s.run Phase.advance schedule
    s'.answers.length = 3 ∧
      (s'.LandsByName ∧
        ∃ schedule', schedule'.Sublist schedule ∧
          s'.answers =
            (s.run Phase.advanceByName schedule').answers) ∧
      s'.lookedUp 0 =
        [⟨false, 1, 2⟩, ⟨false, 1, 2⟩, ⟨false, 1, 2⟩] ∧
      s'.misses 0 = [(1, ⟨false, 1, 2⟩), (0, ⟨false, 1, 2⟩)] ∧
      ∃ site, s'.world.sites[0]? = some site ∧
        site.state.hits + site.state.misses + site.state.cold = 3 ∧
        site.state.misses = 2 := by
  intro bodies script world call s schedule s'
  have hShare :=
    threads_share_site script bodies (fun _ => {}) 2 world rfl
      "norm" {} _ schedule s s' rfl rfl
  have hLookedUp :
      s'.lookedUp 0 =
        [⟨false, 1, 2⟩, ⟨false, 1, 2⟩, ⟨false, 1, 2⟩] := by
    decide +kernel
  have hMisses :
      s'.misses 0 = [(1, ⟨false, 1, 2⟩), (0, ⟨false, 1, 2⟩)] := by
    decide +kernel
  have hSize : world.sites.size = 0 := by
    decide +kernel
  rw [hSize] at hShare
  refine ⟨?_, ?_, hLookedUp, hMisses, ?_⟩
  · decide +kernel
  · apply hShare.1
    · intro context now hMem
      simp only [List.mem_cons, List.not_mem_nil, or_false,
        Prod.mk.injEq] at hMem
      rcases hMem with ⟨_, rfl⟩ | ⟨_, rfl⟩
      · exact ⟨fun _ _ _ => trivial,
          fun _ => ⟨fun _ _ _ => trivial, fun _ => trivial⟩⟩
      · exact ⟨fun _ _ _ => trivial, fun _ => trivial⟩
    · decide +kernel
    · have hNone : s'.changes.length = 0 := by
        decide +kernel
      rw [List.eq_nil_of_length_eq_zero hNone]
      exact nofun
  · rcases hShare.2.2 with ⟨site, hSite, hCount, _, hOnce⟩
    have hThrough :
        (s'.starts.countP fun start => start.call.through 0) =
          3 := by
      decide +kernel
    rw [hLookedUp, hMisses] at hOnce
    exact ⟨site, hSite, hCount.trans hThrough,
      (hOnce (by decide)).2.1⟩

end Script

end RegisterVM
