import RegisterVM.Workspace.Basic

/-
  Runs of calls through one site: a cycle over some receivers in
  one context, and the calls of several threads that share a
  site, made one thread after the other.

  Key definitions include:
    * `CallKind`
    * `CycleLog`
    * `Session.cycle`
    * `ThreadPlan`
    * `Session.runThread`
    * `Session.runThreads`
-/

namespace RegisterVM

------------------------------------------------------------
-- Single calls
------------------------------------------------------------

namespace Session

/- Call through a site in a named context. -/
def callSite
    (context : String)
    (id : SiteId)
    (receiver : Value)
    (args : List Value) : Session (Except Fault Value) :=
  act context (invokeSite Workspace.runner id receiver args)

end Session

------------------------------------------------------------
-- Cycles
------------------------------------------------------------

/- How a call went through a site. -/
inductive CallKind where
  | miss
  | hit
  | cold
  deriving DecidableEq, Repr

namespace CallKind

/- The letter of a kind. -/
def letter : CallKind → String
  | miss => "m"
  | hit => "h"
  | cold => "c"

/-
  The kind of a call, by the counters before and after it. Calls
  that its body makes through the site count too: one hit among
  them makes it a hit, and otherwise one miss a miss.
-/
def between
    (before after : SiteStats) : CallKind :=
  if after.hits ≠ before.hits then hit
  else if after.misses ≠ before.misses then miss
  else cold

end CallKind

/- Append a kind to runs of equal kinds, latest run first. -/
def addRun
    (runs : List (CallKind × Nat))
    (kind : CallKind) : List (CallKind × Nat) :=
  match runs with
  | [] => [(kind, 1)]
  | (last, length) :: rest =>
    if last = kind then (last, length + 1) :: rest
    else (kind, 1) :: runs

/- What a cycle of calls shows. The lists have the latest first. -/
structure CycleLog where
  successes : Nat := 0
  last : Option (Except Fault Value) := none
  runs : List (CallKind × Nat) := []
  /- Numbers of the calls that changed the shape of the site. -/
  changes : List (Nat × SiteStats) := []

namespace CycleLog

/- Whether a call changed the number of entries or the freeze. -/
def reshaped
    (before after : SiteStats) : Bool :=
  before.activeSlots != after.activeSlots
    || before.promoted != after.promoted
    || before.freezeRemaining != after.freezeRemaining

/- Add a call. -/
def add
    (log : CycleLog)
    (call : Nat)
    (outcome : Except Fault Value)
    (before after : SiteStats) : CycleLog where
  successes := log.successes + if outcome.isOk then 1 else 0
  last := some outcome
  runs := addRun log.runs (.between before after)
  changes :=
    if reshaped before after then (call, after) :: log.changes
    else log.changes

/- The runs of a cycle as text. -/
def trace
    (log : CycleLog) : String :=
  String.join
    (log.runs.reverse.map fun (kind, length) => s!"{kind.letter}{length}")

end CycleLog

namespace Session

/- Call with one receiver after the other, over and over. -/
def cycle
    (context : String)
    (id : SiteId)
    (receivers : Array Value)
    (args : List Value)
    (start count : Nat) : Session CycleLog :=
  (List.range count).foldlM
    (fun log i => do
      let call := start + i
      let receiver := receivers[call % receivers.size]?.getD .nil
      let before := (← siteAt id).state.stats
      let outcome ← callSite context id receiver args
      let after := (← siteAt id).state.stats
      return log.add call outcome before after)
    {}

end Session

------------------------------------------------------------
-- Threads
------------------------------------------------------------

/- The calls of a thread: over some receivers, a number of times. -/
structure ThreadPlan where
  receivers : Array Value
  count : Nat

namespace Session

/- The outcomes of a thread, with a fresh context for every call. -/
def runThread
    (id : SiteId)
    (plan : ThreadPlan) : Session (List (Except Fault Value)) :=
  (List.range plan.count).mapM fun i =>
    let receiver :=
      plan.receivers[i % plan.receivers.size]?.getD .nil
    actAside (invokeSite Workspace.runner id receiver [])

end Session

/- What a run of threads shows. -/
structure ThreadsLog where
  /- The outcomes of each thread. -/
  outcomes : List (List (Except Fault Value)) := []
  /- The sites that the threads used, latest first. -/
  sites : List SiteId := []
  /- The counters of the last thread's site. -/
  stats : SiteStats := {}

/- Whether all threads used the same site. -/
def ThreadsLog.oneSite
    (log : ThreadsLog) : Bool :=
  log.sites.all fun id => some id == log.sites.head?

namespace Session

/- Run threads one after the other, each on the site it asks for. -/
def runThreads
    (site : Session SiteId)
    (plans : List ThreadPlan) : Session ThreadsLog := do
  let results ← plans.mapM fun plan => do
    let id ← site
    return (id, ← runThread id plan)
  let sites := (results.map Prod.fst).reverse
  let stats ←
    match sites with
    | [] => pure {}
    | id :: _ => pure (← siteAt id).state.stats
  return { outcomes := results.map Prod.snd, sites, stats }

end Session

end RegisterVM
