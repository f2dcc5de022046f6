import RegisterVM.Dispatch.Cached

/-
  Running bodies. A body that calls a method or a site starts
  another body, so the depth of nested bodies is bounded by an
  explicit allowance; using it up is a fault of its own, which no
  body can catch.

  Key definitions include:
    * `Expr.eval`
    * `Body.step`
    * `Body.eval`
    * `Callable.call`
-/

namespace RegisterVM

------------------------------------------------------------
-- Names and expressions
------------------------------------------------------------

namespace Action

/- What a name stands for. -/
def named
    {α : Type}
    (kind : Named)
    (names : Directory → List (String × α))
    (name : String) : Action α := do
  match (names (← get).world.names).lookup name with
  | some value => return value
  | none => throw (.unbound kind name)

/- The class of a name. -/
def classNamed
    (name : String) : Action ClassId :=
  named .cls Directory.classes name

/- The site of a name. -/
def siteNamed
    (name : String) : Action SiteId :=
  named .site Directory.sites name

/- A new instance of a class. -/
def instantiate
    (cls : ClassId) : Action Value := do
  let (i, heap) := (← heap).newInstance cls
  setHeap heap
  return .inst i

/- A new function. -/
def newCallable
    (name : String)
    (body : Body) : Action Callable := do
  let (callable, heap) := (← heap).newCallable name body
  setHeap heap
  return callable

end Action

/- The value of an expression in a call. -/
def Expr.eval
    (receiver : Value)
    (args : List Value) : Expr → Action Value
  | .nil => return .nil
  | .bool b => return .bool b
  | .int i => return .int i
  | .real r => return .real r
  | .str s => return .str s
  | .inst name =>
    return .inst (← Action.named .inst Directory.instances name)
  | .cls name => return .cls (← Action.classNamed name)
  | .func name =>
    return .func (← Action.named .func Directory.functions name)
  | .fresh name => do Action.instantiate (← Action.classNamed name)
  | .self => return receiver
  | .arg i => return args.getD i .nil
  | .caller =>
    return match (← get).context.caller with
      | some c => .cls c
      | none => .nil

------------------------------------------------------------
-- Steps
------------------------------------------------------------

/- The sum of the integers among some values, modulo 2^64. -/
def sumInts
    (values : List Value) : Int64 :=
  values.foldl
    (fun total value =>
      match value with
      | .int i => total + i
      | _ => total)
    0

/- Run an action with another calling class. -/
def withCaller
    {α : Type}
    (caller : Option ClassId)
    (action : Action α) : Action α := do
  let previous := (← get).context.caller
  Action.modifyContext fun ctx => { ctx with caller }
  try
    let result ← action
    Action.modifyContext fun ctx => { ctx with caller := previous }
    return result
  catch fault =>
    Action.modifyContext fun ctx => { ctx with caller := previous }
    throw fault

/-
  What a body does, given how the bodies that it starts are run.
-/
def Body.step
    (eval : Body → Value → List Value → Action Value)
    (body : Body)
    (receiver : Value)
    (args : List Value) : Action Value := do
  let run : Runner := fun callable => eval callable.body
  match body with
  | .const e => e.eval receiver args
  | .argc => return .int (Int64.ofNat args.length)
  | .sum => return .int (sumInts args)
  | .join =>
    let heap ← Action.heap
    return .str ("|".intercalate (args.map heap.text))
  | .fail message => throw (.failed message)
  | .raise owner member => Action.refuse (.notFound owner member)
  | .site name target passed =>
    let id ← Action.siteNamed name
    let target ← target.eval receiver args
    let passed ← passed.mapM fun e => e.eval receiver args
    invokeSite run id target passed
  | .method member target passed =>
    let target ← target.eval receiver args
    let passed ← passed.mapM fun e => e.eval receiver args
    invokeMethod run target member passed
  | .countdown name =>
    match args with
    | [.int n] =>
      if n ≤ 0 then
        return .int 0
      else
        let id ← Action.siteNamed name
        match ← invokeSite run id receiver [.int (n - 1)] with
        | .int rest => return .int (n + rest)
        | other => throw (.unexpected ((← Action.heap).text other))
    | _ => throw .countdownArgs
  | .define className member visibility label inner =>
    let cls ← Action.classNamed className
    let callable ← Action.newCallable label inner
    Action.setHeap
      ((← Action.heap).defineMethod cls member visibility (some callable))
    return .nil
  | .declare className member visibility =>
    let cls ← Action.classNamed className
    Action.setHeap
      ((← Action.heap).defineMethod cls member visibility none)
    return .nil
  | .defineStatic className member label inner =>
    let cls ← Action.classNamed className
    let callable ← Action.newCallable label inner
    Action.setHeap ((← Action.heap).defineStatic cls member callable)
    return .nil
  | .undefine className member =>
    let cls ← Action.classNamed className
    let (removed, heap) := (← Action.heap).removeMethod cls member
    Action.setHeap heap
    return .bool removed
  | .asCaller className inner =>
    let caller ← className.mapM Action.classNamed
    withCaller caller (eval inner receiver args)
  | .andThen first second =>
    discard (eval first receiver args)
    eval second receiver args
  | .catching inner =>
    try
      eval inner receiver args
    catch
      | .exhausted => throw .exhausted
      | fault => return .str fault.message
  | .log message =>
    Action.modifyWorld fun world =>
      { world with log := message :: world.log }
    return .nil

------------------------------------------------------------
-- Evaluation
------------------------------------------------------------

/- Run a body with an allowance of nested bodies. -/
def Body.eval : (allowance : Nat) →
    Body → Value → List Value → Action Value
  | 0, _, _, _ => throw .exhausted
  | allowance + 1, body, receiver, args =>
    body.step (Body.eval allowance) receiver args

/- Run a callable with an allowance of nested bodies. -/
def Callable.call
    (allowance : Nat) : Runner :=
  fun callable => callable.body.eval allowance

end RegisterVM
