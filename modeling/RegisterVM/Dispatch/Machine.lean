import RegisterVM.Access
import RegisterVM.Effect
import RegisterVM.Fault
import RegisterVM.Site.Stats
import RegisterVM.Trace.Event

/-
  The machine that calls run on: the heap, the call sites, the
  names that bodies may use, and the context of the running call.
  An action changes the machine and yields a value or a fault;
  what it did before a fault stays done.

  Key definitions include:
    * `Site`
    * `Directory`
    * `World`
    * `Machine`
    * `Action`
    * `Runner`
-/

namespace RegisterVM

------------------------------------------------------------
-- Sites and names
------------------------------------------------------------

/- A call site for one method name. -/
structure Site where
  name : String
  tuning : Tuning
  state : SiteState
  deriving Repr, Inhabited

/- A fresh call site. -/
def Site.new
    (name : String)
    (tuning : Tuning) : Site :=
  ⟨name, tuning, .fresh tuning⟩

/- A call site with its counters. -/
def Site.debug
    (site : Site) : String :=
  "MethodCallSite \x7b name: " ++ Text.quote site.name ++ ", stats: "
    ++ site.state.stats.debug ++ " \x7d"

/- The place of a site among all sites. -/
abbrev SiteId :=
  Nat

/- Bind a name, in the place of an earlier binding. -/
def bindName
    {α : Type}
    (names : List (String × α))
    (name : String)
    (value : α) : List (String × α) :=
  (name, value) :: names.filter fun binding => binding.1 ≠ name

/- The objects that have names. -/
structure Directory where
  classes : List (String × ClassId) := []
  instances : List (String × Instance) := []
  functions : List (String × Callable) := []
  sites : List (String × SiteId) := []
  deriving Repr, Inhabited

------------------------------------------------------------
-- The machine
------------------------------------------------------------

/- Everything that outlives a call. -/
structure World where
  heap : Heap := {}
  sites : Array Site := #[]
  names : Directory := {}
  /- Messages logged by bodies, latest first. -/
  log : List String := []
  /- Events reported so far, latest first. -/
  events : List Trace.Event := []
  deriving Repr, Inhabited

/- A world and the context of the running call. -/
structure Machine where
  world : World
  context : Context
  deriving Inhabited

/- A change of the machine that yields a value or a fault. -/
abbrev Action (α : Type) :=
  Effect Machine Fault α

/- How a callable runs on a receiver and arguments. -/
abbrev Runner :=
  Callable → Value → List Value → Action Value

------------------------------------------------------------
-- Basic actions
------------------------------------------------------------

namespace World

/- Report an event. -/
def report
    (world : World)
    (event : Trace.Event) : World :=
  { world with events := event :: world.events }

/- Add a call site. -/
def newSite
    (world : World)
    (name : String)
    (tuning : Tuning) : SiteId × World :=
  (world.sites.size,
    { world with sites := world.sites.push (.new name tuning) })

/- Change the state of a site. -/
def modifySite
    (world : World)
    (id : SiteId)
    (change : SiteState → SiteState) : World :=
  { world with
    sites := world.sites.modify id fun site =>
      { site with state := change site.state } }

end World

namespace Action

/- The heap. -/
def heap : Action Heap :=
  return (← get).world.heap

/- Change the world. -/
def modifyWorld
    (change : World → World) : Action Unit :=
  modify fun m => { m with world := change m.world }

/- Replace the heap. -/
def setHeap
    (heap : Heap) : Action Unit :=
  modifyWorld fun world => { world with heap }

/- Change the context. -/
def modifyContext
    (change : Context → Context) : Action Unit :=
  modify fun m => { m with context := change m.context }

/- Report an event. -/
def report
    (event : Trace.Event) : Action Unit :=
  modifyWorld fun world => world.report event

/- End with a dispatch error. -/
def refuse
    {α : Type}
    (cause : DispatchError) : Action α :=
  throw (.dispatch cause)

/- The slot table of a class. -/
def slotTable
    (cls : ClassId) : Action SlotTable := do
  let (table, heap) := (← heap).slotTable cls
  setHeap heap
  return table

/- Look up a method by name and count the lookup. -/
def resolve
    (cls : ClassId)
    (name : String) : Action (Option Heap.Resolved) := do
  modifyContext Context.countResolution
  let (resolved, heap) := (← heap).resolve cls name
  setHeap heap
  return resolved

/- Look up a class-scope member by name and count the lookup. -/
def resolveStatic
    (cls : ClassId)
    (name : String) : Action (Option Callable) := do
  modifyContext Context.countResolution
  return (← heap).resolveStatic cls name

/- Ask whether the caller may call a member. -/
def canAccess
    (visibility : Visibility)
    (declaring : ClassId)
    (member : String) : Action Bool := do
  let heap ← heap
  let (answer, context) :=
    (← get).context.ask heap visibility declaring member
  modifyContext fun _ => context
  return answer

/- Refuse the call unless the caller may call the member. -/
def checkAccess
    (visibility : Visibility)
    (declaring : ClassId)
    (member : String)
    (owner : ClassId) : Action Unit := do
  unless ← canAccess visibility declaring member do
    refuse
      (.illegalAccess visibility ((← heap).className owner) member)

end Action

end RegisterVM
