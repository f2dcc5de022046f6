import RegisterVM.Dispatch.Body
import RegisterVM.Frame
import RegisterVM.Function.Basic

/-
  Workspaces: a world together with everything else that is kept
  by name between requests, namely calling contexts, frames,
  functions and routes. Binding a name again replaces what it
  stood for.

  Key definitions include:
    * `NamedContext`
    * `Workspace`
    * `Session`
    * `Session.act`
    * `Session.newClass`
    * `Session.showTable?`
-/

namespace RegisterVM

------------------------------------------------------------
-- Workspaces
------------------------------------------------------------

/- A context, and whether its queries are kept for inspection. -/
structure NamedContext where
  context : Context := {}
  logged : Bool := false
  deriving Inhabited

/- Which slot table was shown: that of a class, at a version. -/
structure ShownTable where
  cls : ClassId
  version : Nat
  deriving DecidableEq, Repr

/- A world and what is named besides. -/
structure Workspace where
  world : World := {}
  contexts : List (String × NamedContext) := []
  frames : List (String × Frame) := []
  functions : List (String × Function) := []
  routes : List (String × Route) := []
  shown : List (String × ShownTable) := []

/- A change of a workspace that yields a result. -/
abbrev Session (α : Type) :=
  StateM Workspace α

/- How deep bodies may nest in a workspace. -/
def Workspace.allowance : Nat :=
  1000000

/- How callables run in a workspace. -/
def Workspace.runner : Runner :=
  Callable.call Workspace.allowance

/- The context of a name. A name that was never bound is fresh. -/
def Workspace.context
    (w : Workspace)
    (name : String) : NamedContext :=
  (w.contexts.lookup name).getD {}

------------------------------------------------------------
-- Acting
------------------------------------------------------------

namespace Session

/- Run an action in a named context. -/
def act
    {α : Type}
    (name : String)
    (action : Action α) : Session (Except Fault α) := do
  let w ← get
  let named := w.context name
  let (result, machine) := action.run ⟨w.world, named.context⟩
  set { w with
    world := machine.world
    contexts :=
      bindName w.contexts name
        { named with context := machine.context } }
  return result

/- Run an action in a context that is not kept. -/
def actAside
    {α : Type}
    (action : Action α) : Session (Except Fault α) := do
  let w ← get
  let (result, machine) := action.run ⟨w.world, {}⟩
  set { w with world := machine.world }
  return result

/- The value of an expression outside every call. -/
def value
    (e : Expr) : Session (Except Fault Value) :=
  actAside (e.eval .nil [])

/- Run a body outside every call. -/
def perform
    (body : Body) : Session (Except Fault Value) :=
  actAside (body.eval Workspace.allowance .nil [])

/- Change the names of a workspace. -/
def modifyNames
    (change : Directory → Directory) : Session Unit :=
  modify fun w =>
    { w with world := { w.world with names := change w.world.names } }

/- The messages logged since they were last taken, in order. -/
def takeLog : Session (List String) := do
  let w ← get
  set { w with world := { w.world with log := [] } }
  return w.world.log.reverse

------------------------------------------------------------
-- Named objects
------------------------------------------------------------

/- The class of a name. -/
def class?
    (name : String) : Session (Option ClassId) :=
  return (← get).world.names.classes.lookup name

/- Create a class and name it. -/
def newClass
    (handle name : String)
    (parent : Option ClassId) : Session ClassId := do
  let w ← get
  let (id, heap) := w.world.heap.newClass name parent
  set { w with world := { w.world with heap } }
  modifyNames fun names =>
    { names with classes := bindName names.classes handle id }
  return id

/- Create an instance and name it. -/
def newInstance
    (handle : String)
    (cls : ClassId) : Session Instance := do
  let w ← get
  let (i, heap) := w.world.heap.newInstance cls
  set { w with world := { w.world with heap } }
  modifyNames fun names =>
    { names with instances := bindName names.instances handle i }
  return i

/- Create a function value and name it. -/
def newCallable
    (handle name : String)
    (body : Body) : Session Callable := do
  let w ← get
  let (callable, heap) := w.world.heap.newCallable name body
  set { w with world := { w.world with heap } }
  modifyNames fun names =>
    { names with functions := bindName names.functions handle callable }
  return callable

/- Name a call site. -/
def nameSite
    (handle : String)
    (id : SiteId) : Session Unit :=
  modifyNames fun names =>
    { names with sites := bindName names.sites handle id }

/- Create a call site and name it. -/
def newSite
    (handle name : String)
    (tuning : Tuning) : Session SiteId := do
  let w ← get
  let (id, world) := w.world.newSite name tuning
  set { w with world }
  nameSite handle id
  return id

/- The site of a name. -/
def site?
    (name : String) : Session (Option SiteId) :=
  return (← get).world.names.sites.lookup name

/- A site by its place. -/
def siteAt
    (id : SiteId) : Session Site :=
  return (← get).world.sites[id]?.getD default

/- The smallest name of an instance. -/
def nameOf?
    (i : Instance) : Session (Option String) := do
  let names :=
    (← get).world.names.instances.filterMap fun (name, other) =>
      if other.ident = i.ident then some name else none
  return names.foldl
    (fun best name =>
      match best with
      | some b => some (if name < b then name else b)
      | none => some name)
    none

------------------------------------------------------------
-- Slot tables
------------------------------------------------------------

/-
  The slot table of a named class, and whether it is the very
  table that was shown for the name the last time.
-/
def showTable?
    (handle : String) : Session (Option (SlotTable × Bool)) := do
  let some cls ← class? handle
    | return none
  let w ← get
  let (table, heap) := w.world.heap.slotTable cls
  let now : ShownTable := ⟨cls, table.version⟩
  set { w with
    world := { w.world with heap }
    shown := bindName w.shown handle now }
  return some (table, w.shown.lookup handle == some now)

------------------------------------------------------------
-- Contexts
------------------------------------------------------------

/- Create a context and name it. -/
def newContext
    (handle : String)
    (caller : Option ClassId)
    (policy : Policy)
    (logged : Bool) : Session Unit :=
  modify fun w =>
    { w with
      contexts :=
        bindName w.contexts handle
          { context := { caller, policy }, logged } }

/- Change the calling class of a context, and yield the old one. -/
def setCaller
    (handle : String)
    (caller : Option ClassId) : Session (Option ClassId) := do
  let named := (← get).context handle
  modify fun w =>
    { w with
      contexts :=
        bindName w.contexts handle
          { named with context := { named.context with caller } } }
  return named.context.caller

/- The counts of a context. -/
def dispatchStats
    (handle : String) : Session DispatchStats :=
  return ((← get).context handle).context.stats

/-
  The queries of a context since they were last taken, in order.
  A context that keeps none has none.
-/
def takeQueries
    (handle : String) : Session (List Query) := do
  let named := (← get).context handle
  modify fun w =>
    { w with
      contexts :=
        bindName w.contexts handle
          { named with context := { named.context with queries := [] } } }
  return if named.logged then named.context.queries.reverse else []

end Session

end RegisterVM
