import RegisterVM.Proofs.Simulation.Calls

/-
  What a simulation reports. Which calls hit is decided by the keys
  of the receivers in the order of the pattern: one class, or two
  in turn, always find their key again, and more than four in turn
  never do, since a site has four entries at most. From the counts
  of the calls follow those of the report, for every tuning.

  Key definitions include:
    * `Simulation.picks`

  Key theorems include:
    * `SiteState.Tallied.misses_of_two`
    * `SiteState.Tallied.hits_of_far`
    * `Simulation.cycle_far`
    * `Simulation.exists_run`
    * `Simulation.run_reports`
-/

namespace RegisterVM

------------------------------------------------------------
-- Hits And Misses Of Keys
------------------------------------------------------------

theorem Tuning.initialEntries_le_four
    (t : Tuning) :
    t.initialEntries ≤ 4 := by
  unfold initialEntries
  split <;> decide

namespace SiteState

variable {t : Tuning} {keys : List Key} {s s' : SiteState}

/- A site that only misses counts no hit. -/
theorem Visits.hits_of_misses
    {visits : List Visit}
    (hVisits : Visits t s visits s')
    (hMisses : ∀ v ∈ visits, v.Misses) :
    s'.hits = s.hits := by
  induction hVisits with
  | nil s => rfl
  | cold _ ih => exact ih hMisses
  | visit route _ ih =>
      rw [List.forall_mem_cons] at hMisses
      exact (ih hMisses.2).trans hMisses.1.1

/- At most two keys miss once each. -/
theorem Tallied.misses_of_two
    (hTallied : Tallied t keys s)
    (hEnabled : t.enabled = true)
    (hTwo : keys.eraseDups.length ≤ 2) :
    s.misses = keys.eraseDups.length := by
  rcases hTallied.visits with ⟨visits, hVisits, hKeys⟩
  rw [hEnabled, if_pos rfl] at hKeys
  have hMisses :=
    hVisits.misses_of_two (.fresh t) (.nil t) rfl
  rw [hKeys, List.append_nil, length_eraseDups_reverse]
    at hMisses
  exact hMisses hTwo

/- Keys that always come back after four others never hit. -/
theorem Tallied.hits_of_far
    (hTallied : Tallied t keys s)
    (hEnabled : t.enabled = true)
    (hFar :
      ∀ n key, keys[n]? = some key → key ∈ keys.take n →
        4 ≤ (usedSince (keys.take n).reverse key).length) :
    s.hits = 0 := by
  rcases hTallied.visits with ⟨visits, hVisits, hKeys⟩
  rw [hEnabled, if_pos rfl] at hKeys
  apply hVisits.hits_of_misses
  intro v hMem
  rcases List.mem_iff_getElem?.mp hMem with ⟨n, hVisit⟩
  have hRecent := hVisits.recent (.fresh t) (.nil t) hVisit
  rw [List.append_nil, List.map_take, hKeys] at hRecent
  have hKey : keys[n]? = some v.key := by
    rw [← hKeys, List.getElem?_map, hVisit]
    rfl
  by_cases hUsed : v.key ∈ keys.take n
  · have hOthers := hFar n v.key hKey hUsed
    have hPast : v.key ∈ (keys.take n).reverse :=
      List.mem_reverse.mpr hUsed
    cases hAdapts : t.adapts with
    | true => exact (hRecent.adaptive hAdapts hPast).2 hOthers
    | false =>
        apply (hRecent.fixed hAdapts hPast).2
        exact Nat.le_trans t.initialEntries_le_four hOthers
  · exact hRecent.first fun h => hUsed (List.mem_reverse.mp h)

end SiteState

namespace Simulation

------------------------------------------------------------
-- Keys Of Patterns
------------------------------------------------------------

theorem keyOf_injective
    (heap : Heap) :
    Function.Injective (keyOf heap) := by
  intro i j hSame
  have hClass := congrArg Key.cls hSame
  exact Nat.succ.inj hClass

/- There are as many distinct keys as classes that are used. -/
theorem length_eraseDups_keys
    (heap : Heap)
    {picks : List Nat}
    {used : Nat}
    (hPicks : ∀ number, number ∈ picks ↔ number < used) :
    (picks.map (keyOf heap)).eraseDups.length = used := by
  let keys := (List.range used).map (keyOf heap)
  have hLength : keys.length = used := by
    simp [keys]
  have hDistinct : keys.Nodup :=
    List.nodup_range.map (keyOf_injective heap)
  have hSame :
      ∀ key, key ∈ (picks.map (keyOf heap)).eraseDups ↔
        key ∈ keys := by
    intro key
    simp [keys, List.mem_eraseDups, hPicks]
  rw [← hLength]
  apply Nat.le_antisymm
  · apply List.Subperm.length_le
    apply List.subperm_of_subset (nodup_eraseDups _)
    exact fun key hMem => (hSame key).mp hMem
  · apply List.Subperm.length_le
    apply List.subperm_of_subset hDistinct
    exact fun key hMem => (hSame key).mpr hMem

/- At most two classes miss once each. -/
theorem misses_of_used
    {heap : Heap}
    {picks : List Nat}
    {t : Tuning}
    {state : SiteState}
    (hTallied :
      SiteState.Tallied t (picks.map (keyOf heap)) state)
    (hEnabled : t.enabled = true)
    {used : Nat}
    (hPicks : ∀ number, number ∈ picks ↔ number < used)
    (hTwo : used ≤ 2) :
    state.misses = used := by
  have hUsed := length_eraseDups_keys heap hPicks
  rw [← hUsed] at hTwo ⊢
  exact hTallied.misses_of_two hEnabled hTwo

theorem add_mod_ne
    {classes more : Nat}
    (hMore : 0 < more)
    (hLess : more < classes)
    (call : Nat) :
    (call + more) % classes ≠ call % classes := by
  intro hSame
  have hDivides := Nat.sub_mod_eq_zero_of_mod_eq hSame
  rw [Nat.add_sub_cancel_left, Nat.mod_eq_of_lt hLess]
    at hDivides
  omega

/- Classes in turn: a class that comes again does so after all others. -/
theorem cycle_far
    (heap : Heap)
    {classes calls : Nat}
    (hMany : 4 < classes)
    (n : Nat)
    (key : Key) :
    let keys :=
      ((List.range calls).map (Pattern.cycle.pick classes)).map
        (keyOf heap)
    keys[n]? = some key → key ∈ keys.take n →
      4 ≤ (usedSince (keys.take n).reverse key).length := by
  intro keys hKey hUsed
  let keyAt := fun call => keyOf heap (call % classes)
  have hKeys : keys = (List.range calls).map keyAt := by
    simp [keys, keyAt, Pattern.pick]
  rw [hKeys, List.getElem?_map] at hKey
  rcases Option.map_eq_some_iff.mp hKey with ⟨call, hCall, rfl⟩
  rcases List.getElem?_eq_some_iff.mp hCall with ⟨hBound, hSame⟩
  rw [List.length_range] at hBound
  rw [List.getElem_range] at hSame
  subst hSame
  have hPast : keys.take n = (List.range n).map keyAt := by
    rw [hKeys, ← List.map_take, List.take_range,
      Nat.min_eq_left (Nat.le_of_lt hBound)]
  rw [hPast] at hUsed ⊢
  have hAgain : classes ≤ n := by
    rcases List.mem_map.mp hUsed with ⟨earlier, hMem, hSame⟩
    have hEarlier := List.mem_range.mp hMem
    have hClass := keyOf_injective heap hSame
    by_contra hFirst
    rw [Nat.mod_eq_of_lt (by omega), Nat.mod_eq_of_lt (by omega)]
      at hClass
    omega
  -- The last four calls before this one went to four other classes.
  rcases Nat.exists_eq_add_of_le' (show 4 ≤ n by omega) with
    ⟨before, rfl⟩
  have hOther :
      ∀ i j, i < j → j ≤ 4 →
        keyAt (before + j) ≠ keyAt (before + i) := by
    intro i j hLess hFour hSame
    have hClass := keyOf_injective heap hSame
    have hMore : before + j = before + i + (j - i) := by omega
    rw [hMore] at hClass
    exact add_mod_ne (by omega) (by omega) _ hClass
  let latest :=
    (List.range 4).map fun i => keyAt (before + i)
  have hSplit :
      ((List.range (before + 4)).map keyAt).reverse =
        latest.reverse ++ ((List.range before).map keyAt).reverse := by
    rw [List.range_add, List.map_append, List.reverse_append,
      List.map_map]
    rfl
  have hDistinct : latest.Nodup := by
    apply List.Nodup.map_on _ List.nodup_range
    intro i hI j hJ hSame
    rw [List.mem_range] at hI hJ
    rcases Nat.lt_trichotomy i j with hLess | hEq | hLess
    · exact absurd hSame.symm (hOther i j hLess (by omega))
    · exact hEq
    · exact absurd hSame (hOther j i hLess (by omega))
  have hApart :
      ∀ other ∈ latest.reverse,
        (other != keyAt (before + 4)) = true := by
    intro other hMem
    rcases List.mem_map.mp (List.mem_reverse.mp hMem) with
      ⟨i, hI, rfl⟩
    have hNe := hOther i 4 (List.mem_range.mp hI) (Nat.le_refl 4)
    simpa using hNe.symm
  have hAmong :
      latest ⊆
        usedSince ((List.range (before + 4)).map keyAt).reverse
          (keyAt (before + 4)) := by
    intro other hMem
    rw [hSplit, usedSince, List.takeWhile_append_of_pos hApart,
      List.mem_eraseDups]
    exact List.mem_append_left _ (List.mem_reverse.mpr hMem)
  exact (List.subperm_of_subset hDistinct hAmong).length_le

/- One class is used over and over. -/
theorem mem_mono_iff
    (classes calls number : Nat) :
    number ∈ (List.range calls).map (Pattern.mono.pick classes) ↔
      number < min calls 1 := by
  rw [List.mem_map]
  constructor
  · rintro ⟨call, hCall, rfl⟩
    have hCall := List.mem_range.mp hCall
    simp only [Pattern.pick]
    omega
  · intro hUsed
    refine ⟨0, List.mem_range.mpr (by omega), ?_⟩
    simp only [Pattern.pick]
    omega

/- Classes in turn: as many are used as there are calls, or all. -/
theorem mem_cycle_iff
    {classes : Nat}
    (hClasses : 1 ≤ classes)
    (calls number : Nat) :
    number ∈ (List.range calls).map (Pattern.cycle.pick classes) ↔
      number < min calls classes := by
  rw [List.mem_map]
  constructor
  · rintro ⟨call, hCall, rfl⟩
    have hCall := List.mem_range.mp hCall
    have hClass := Nat.mod_lt call hClasses
    have hSmall := Nat.mod_le call classes
    simp only [Pattern.pick]
    omega
  · intro hUsed
    refine ⟨number, List.mem_range.mpr (by omega), ?_⟩
    exact Nat.mod_eq_of_lt (by omega)

------------------------------------------------------------
-- Whole Simulations
------------------------------------------------------------

/- The numbers of the classes that are called, in order. -/
def picks
    (sim : Simulation) : List Nat :=
  (List.range sim.calls).map (sim.pattern.pick sim.classes)

theorem length_picks
    (sim : Simulation) :
    sim.picks.length = sim.calls := by
  simp [picks]

/- The state before the first call. -/
def opening
    (tuning : Tuning)
    (heap : Heap) : Progress where
  state :=
    { function := simulated tuning
      frame := .new 3 0
      machine := { world := { heap }, context := {} } }

theorem ran_opening
    (tuning : Tuning)
    {heap : Heap}
    (hHeap : heap.Coherent) :
    Ran tuning heap [] (opening tuning heap) where
  coherent := by
    refine ⟨hHeap, ?_⟩
    intro id site hSite
    cases hSite
  heap := rfl
  policy := rfl
  slots := rfl
  checksum := rfl
  accessChecks := rfl
  site := ⟨.fresh tuning, ⟨rfl, rfl, rfl⟩,
    SiteState.tallied_fresh tuning, rfl⟩

/- A simulation with classes and an accepted tuning succeeds. -/
theorem exists_run
    (sim : Simulation)
    (hClasses : 1 ≤ sim.classes)
    (hTuning : sim.tuning.check = .ok ()) :
    ∃ progress notes,
      sim.run = .ok (sim.report progress, notes) ∧
        Ran sim.tuning (receivers emptyHeap sim.classes).2
          sim.picks progress := by
  have hMade := made_receivers sim.classes
  rcases Ran.calls hMade hClasses
      (ran_opening sim.tuning hMade.coherent) with
    ⟨progress, hCalls, hRan⟩
  have hSome : sim.classes ≠ 0 := by omega
  have hFrame :
      sim.callAll instr (receivers emptyHeap sim.classes).1
          { state :=
              { function := simulated sim.tuning
                frame :=
                  .new (simulated sim.tuning).localCount
                    (simulated sim.tuning).argCount
                machine :=
                  { world :=
                      { heap := (receivers emptyHeap
                          sim.classes).2 }
                    context := {} } } } =
        .ok progress :=
    hCalls
  have hRun :
      ∃ notes, sim.run = .ok (sim.report progress, notes) := by
    unfold run
    rw [if_neg hSome, function_eq hTuning]
    simp only [bind, Except.bind, pure, Except.pure, decode_code,
      Except.mapError]
    split
    next =>
      rcases exists_listingNotes sim.tuning {} with
        ⟨listed, hListed⟩
      rw [hListed]
      simp only [hFrame]
      exact ⟨_, rfl⟩
    next =>
      simp only [hFrame]
      exact ⟨_, rfl⟩
  rcases hRun with ⟨notes, hRun⟩
  exact ⟨progress, notes, hRun, hRan⟩

/- The report on calls that were made. -/
theorem Ran.reports
    {sim : Simulation}
    {start : Heap}
    {numbers : List Nat}
    {progress : Progress}
    (hRan : Ran sim.tuning start numbers progress) :
    ∃ state,
      SiteState.Tallied sim.tuning (numbers.map (keyOf start))
          state ∧
        (sim.report progress).sites =
          (if numbers = [] then []
            else [⟨0, method, state.stats⟩]) ∧
        (sim.report progress).summary.hits = state.hits ∧
        (sim.report progress).summary.misses = state.misses ∧
        (sim.report progress).summary.cold = state.cold ∧
        (sim.report progress).dispatch.resolutions =
          state.misses + state.cold := by
  rcases hRan.site with ⟨state, hSite, hTallied, hResolutions⟩
  cases numbers with
  | nil =>
      rcases hSite with ⟨hFunction, _, rfl⟩
      have hReports :
          (sim.report progress).sites = [] := by
        rw [report, Function.siteReports, hFunction]
        rfl
      have hSummary : (sim.report progress).summary = {} := by
        show Summary.ofReports (sim.report progress).sites = _
        rw [hReports]
        rfl
      rw [hReports, hSummary]
      exact ⟨_, hTallied, rfl, rfl, rfl, rfl, hResolutions⟩
  | cons first rest =>
      rcases hSite with ⟨hFunction, hSites⟩
      have hReports :
          (sim.report progress).sites =
            [⟨0, method, state.stats⟩] := by
        rw [report, Function.siteReports, hFunction, hSites]
        rfl
      have hSummary :
          (sim.report progress).summary =
            Summary.add {} ⟨0, method, state.stats⟩ := by
        show Summary.ofReports (sim.report progress).sites = _
        rw [hReports]
        rfl
      rw [hReports, hSummary]
      exact ⟨state, hTallied, rfl, Nat.zero_add _,
        Nat.zero_add _, Nat.zero_add _, hResolutions⟩

/-
  Reports are right, whatever the pattern and the tuning. The
  simulation succeeds. The checksum is the sum of the numbers of
  the classes called, and has nothing to do with the tuning. Every
  call is one hit, miss or cold call and one question to the policy,
  and makes a lookup by name unless it is a hit. Once there is a
  call there is one site, with all the counts. A disabled site has
  cold calls only, and an enabled one none. One class, or two in
  turn, miss once each; more than four in turn never hit, however
  the site is tuned.
-/
theorem run_reports
    (sim : Simulation)
    (hClasses : 1 ≤ sim.classes)
    (hTuning : sim.tuning.check = .ok ())
    (hSum : sim.picks.sum < 2 ^ 63) :
    ∃ report notes, sim.run = .ok (report, notes) ∧
      report.checksum.toInt = sim.picks.sum ∧
      report.summary.hits + report.summary.misses +
          report.summary.cold =
        sim.calls ∧
      report.dispatch.accessChecks = sim.calls ∧
      report.dispatch.resolutions =
        report.summary.misses + report.summary.cold ∧
      (sim.calls = 0 → report.sites = []) ∧
      (0 < sim.calls →
        ∃ site, report.sites = [site] ∧
          site.offset = 0 ∧
          report.summary =
            { sites := 1
              hits := site.stats.hits
              misses := site.stats.misses
              cold := site.stats.cold
              promotedSites :=
                if site.stats.promoted then 1 else 0 }) ∧
      report.summary.cold =
        (if sim.tuning.enabled then 0 else sim.calls) ∧
      (sim.tuning.enabled = true →
        (sim.pattern = .mono →
          report.summary.misses = min sim.calls 1) ∧
        (sim.pattern = .cycle → sim.classes ≤ 2 →
          report.summary.misses = min sim.calls sim.classes) ∧
        (sim.pattern = .cycle → 4 < sim.classes →
          report.summary.hits = 0)) := by
  rcases sim.exists_run hClasses hTuning with
    ⟨progress, notes, hRun, hRan⟩
  let heap := (receivers emptyHeap sim.classes).2
  rcases hRan.reports with
    ⟨state, hTallied, hSites, hHits, hMisses, hCold, hResolutions⟩
  have hLength :
      (sim.picks.map (keyOf heap)).length = sim.calls := by
    rw [List.length_map, length_picks]
  have hTotal := hTallied.total
  have hColder := hTallied.cold
  rw [hLength] at hTotal hColder
  have hEmpty : sim.picks = [] ↔ sim.calls = 0 := by
    rw [← List.length_eq_zero_iff, length_picks]
  refine ⟨sim.report progress, notes, hRun, ?_⟩
  rw [hHits, hMisses, hCold]
  refine ⟨?_, hTotal, ?_, hResolutions, ?_, ?_, hColder, ?_⟩
  · show progress.checksum.toInt = _
    rw [hRan.checksum]
    exact Int64.toInt_ofNat_of_lt hSum
  · show progress.state.machine.context.stats.accessChecks = _
    rw [hRan.accessChecks, length_picks]
  · intro hNone
    rw [hSites, if_pos (hEmpty.mpr hNone)]
  · intro hSome
    have hCalled : sim.picks ≠ [] := by
      intro hNone
      have := hEmpty.mp hNone
      omega
    rw [if_neg hCalled] at hSites
    refine ⟨_, hSites, rfl, ?_⟩
    show Summary.ofReports (sim.report progress).sites = _
    rw [hSites]
    simp only [Summary.ofReports, Summary.add, List.foldl_cons,
      List.foldl_nil, Nat.zero_add]
  · intro hEnabled
    refine ⟨?_, ?_, ?_⟩
    · intro hMono
      rw [picks, hMono] at hTallied
      exact misses_of_used hTallied hEnabled
        (mem_mono_iff sim.classes sim.calls) (by omega)
    · intro hCycle hTwo
      rw [picks, hCycle] at hTallied
      exact misses_of_used hTallied hEnabled
        (mem_cycle_iff hClasses sim.calls) (by omega)
    · intro hCycle hMany
      rw [picks, hCycle] at hTallied
      exact hTallied.hits_of_far hEnabled (cycle_far heap hMany)

/-
  Twelve calls on five classes in turn: every call misses, and the
  results add up.
-/
theorem run_reports_of_five_classes :
    let sim : Simulation :=
      { classes := 5, calls := 12, listing := true }
    ∃ report notes, sim.run = .ok (report, notes) ∧
      report.checksum.toInt = 21 ∧
      report.summary.hits = 0 ∧
      report.summary.misses = 12 ∧
      report.dispatch.resolutions = 12 := by
  intro sim
  have hSum : sim.picks.sum = 21 := by decide
  rcases run_reports sim (by decide) rfl (by rw [hSum]; decide)
    with
    ⟨report, notes, hRun, hChecksum, hTotal, _, hResolutions, _, _,
      hCold, hCounts⟩
  have hHits := (hCounts rfl).2.2 rfl (by decide)
  have hCalls : sim.calls = 12 := rfl
  have hNone : report.summary.cold = 0 := hCold
  rw [hSum] at hChecksum
  refine ⟨report, notes, hRun, hChecksum, hHits, ?_, ?_⟩
  · omega
  · omega

end Simulation

end RegisterVM
