import RegisterVM.Dispatch.Generic

/-
  Dispatch through a call site. A site remembers how calls with a
  given class and layout reach their body. On a hit only the
  checks that hold per call are repeated; on a miss the route is
  resolved, remembered and taken.

  The state of a site is changed before the body runs and not
  afterwards, so that a body may enter the same site again.

  Key definitions include:
    * `Route.resolve`
    * `Route.take`
    * `invokeSite`
-/

namespace RegisterVM

namespace Route

/- Resolve a member and decide what to remember. -/
def resolve
    (receiver : Value)
    (name : String) : Action Route := do
  match receiver with
  | .inst i =>
    match ← Action.resolve i.cls name with
    | none =>
      return .failure
        (.notFound ((← Action.heap).className i.cls) name)
    | some resolved =>
      let record := resolved.record
      match record.body, resolved.slot with
      | none, _ => return .generic
      | some _, some index => return .slot i.cls index
      | some body, none =>
        return .direct body record.visibility record.declaring
  | .cls c =>
    match ← Action.resolveStatic c name with
    | some callable => return .classScope callable
    | none =>
      let owner := classScopeOwner ((← Action.heap).className c)
      return .failure (.notFound owner name)
  | _ => return .generic

/-
  Take a route. A slot route that does not fit the receiver or
  the current table falls back to generic dispatch.
-/
def take
    (run : Runner)
    (route : Route)
    (receiver : Value)
    (name : String)
    (args : List Value) : Action Value := do
  match route with
  | .slot cls index =>
    match receiver with
    | .inst i =>
      if i.cls ≠ cls then
        invokeInstance run i name args
      else
        let table ← Action.slotTable i.cls
        match (table.get? index).filter fun r => r.name == name with
        | none => invokeInstance run i name args
        | some record =>
          match record.body with
          | none => invokeInstance run i name args
          | some body =>
            Action.checkAccess record.visibility record.declaring name cls
            run body receiver args
    | _ => invokeMethod run receiver name args
  | .direct callable visibility declaring =>
    if let .inst i := receiver then
      Action.checkAccess visibility declaring name i.cls
    run callable receiver args
  | .classScope callable => run callable receiver args
  | .generic => invokeMethod run receiver name args
  | .failure cause => Action.refuse cause

end Route

------------------------------------------------------------
-- Sites
------------------------------------------------------------

/- The event of a change of a site. -/
def SiteNote.event
    (site : String) : SiteNote → Trace.Event
  | .promoted accesses misses =>
    .promoted site maxEntries accesses misses
  | .demoted freeze => .demoted site baseEntries freeze

/- Look a key up at a site and report what that changed. -/
def accessSite
    (id : SiteId)
    (site : Site)
    (key : Key) : Action (Option Route) := do
  let (access, state) := site.state.access site.tuning key
  Action.modifyWorld fun world => world.modifySite id fun _ => state
  for note in access.notes do
    Action.report (note.event site.name)
  return access.route

/- Resolve a route on a miss and report it. -/
def resolveMiss
    (site : Site)
    (key : Key)
    (receiver : Value) : Action Route := do
  let route ← Route.resolve receiver site.name
  Action.report (.missed site.name key.word key.version route.kind)
  if let .failure cause := route then
    Action.report
      (.failureKept site.name key.word key.version cause.text)
  return route

/- Call the method of a site on a receiver. -/
def invokeSite
    (run : Runner)
    (id : SiteId)
    (receiver : Value)
    (args : List Value) : Action Value := do
  let some site := (← get).world.sites[id]?
    | throw (.unbound .site (toString id))
  let heap ← Action.heap
  let key := if site.tuning.enabled then heap.key? receiver else none
  match key with
  | none =>
    Action.modifyWorld fun world => world.modifySite id SiteState.coldCall
    invokeMethod run receiver site.name args
  | some key =>
    match ← accessSite id site key with
    | some route => route.take run receiver site.name args
    | none =>
      let route ← resolveMiss site key receiver
      Action.modifyWorld fun world =>
        world.modifySite id fun state => state.insert ⟨key, route⟩
      route.take run receiver site.name args

end RegisterVM
