import Mathlib.Tactic.Choose
import RegisterVM.Proofs.Dispatch.Native

/-
  Bodies step by step. A routine is a native body written out:
  what it does on its own, the calls it makes, and how it goes on
  from each result. So one can say which calls a run makes, in
  which order and on which machines. A call leads to a body or to
  a fault, before any body runs; what is known of single deeds
  and of where single calls lead holds of whole runs.

  Key definitions include:
    * `Dispatch`
    * `landing`
    * `Routine`
    * `Routine.action`
    * `Routine.calls`

  Key theorems include:
    * `Dispatch.forwards`
    * `Routine.native_action`
    * `Runner.Native.exists_bodies`
    * `Routine.run_induction`
    * `Routine.holds_calls`
-/

namespace RegisterVM

------------------------------------------------------------
-- Where Calls Lead
------------------------------------------------------------

/- A call of a member, by name or through a site. -/
inductive Dispatch where
  | method (receiver : Value) (name : String) (args : List Value)
  | site (id : SiteId) (receiver : Value) (args : List Value)

namespace Dispatch

/- The value that is called. -/
def receiver : Dispatch → Value
  | method receiver .. | site _ receiver _ => receiver

/- The values that are passed. -/
def args : Dispatch → List Value
  | method _ _ args | site _ _ args => args

/- Make the call. -/
def action
    (run : Runner) : Dispatch → Action Value
  | method receiver name args => invokeMethod run receiver name args
  | site id receiver args => invokeSite run id receiver args

end Dispatch

/- Run nothing, and yield the callable that was to be run. -/
def Runner.arrive : Runner :=
  fun callable _ _ => return .func callable

/-
  Where a call leads: the body that it is about to run, or a
  fault, and the machine at that moment.
-/
def landing
    (call : Runner → Action Value)
    (m : Machine) : Except Fault Callable × Machine :=
  match (call .arrive).run m with
  | (.ok (.func body), m') => (.ok body, m')
  | (.ok _, m') => (.error .exhausted, m')
  | (.error fault, m') => (.error fault, m')

theorem snd_landing
    (call : Runner → Action Value)
    (m : Machine) :
    (landing call m).2 = ((call .arrive).run m).2 := by
  unfold landing
  rcases (call .arrive).run m with ⟨_ | value, m'⟩
  · rfl
  · cases value <;> rfl

/- Run the body that a call leads to. -/
def enter
    (run : Runner)
    (receiver : Value)
    (args : List Value) :
    Except Fault Callable × Machine → Except Fault Value × Machine
  | (.ok body, m) => (run body receiver args).run m
  | (.error fault, m) => (.error fault, m)

/- A call that runs the body it leads to, at its end, or none. -/
def Forwards
    (receiver : Value)
    (args : List Value)
    (call : Runner → Action Value) : Prop :=
  ∀ run m,
    (call run).run m = enter run receiver args (landing call m)

namespace Forwards

variable {receiver : Value} {args : List Value}

theorem body
    (callable : Callable) :
    Forwards receiver args fun run => run callable receiver args :=
  fun _ _ => rfl

theorem throw
    (fault : Fault) :
    Forwards receiver args fun _ => MonadExcept.throw fault :=
  fun _ _ => rfl

/- What goes before does not depend on how bodies run. -/
theorem bind
    {α : Type}
    {first : Action α}
    {rest : α → Runner → Action Value}
    (hRest : ∀ value, Forwards receiver args (rest value)) :
    Forwards receiver args fun run =>
      first >>= fun value => rest value run := by
  intro run m
  unfold landing
  rw [Effect.run_bind, Effect.run_bind]
  rcases first.run m with ⟨_ | value, m'⟩
  · rfl
  · exact hRest value run m'

theorem invokeInstance
    (i : Instance)
    (name : String) :
    Forwards (.inst i) args fun run =>
      RegisterVM.invokeInstance run i name args := by
  unfold RegisterVM.invokeInstance
  apply bind
  rintro (_ | ⟨record, slot⟩)
  · exact bind fun _ => throw _
  · cases hBody : record.body with
    | none =>
        simp only [hBody]
        exact bind fun _ => throw _
    | some callable =>
        simp only [hBody]
        apply bind
        intro _
        cases slot with
        | none => exact body callable
        | some slot => exact bind fun table => body _

theorem invokeMethod
    (name : String) :
    Forwards receiver args fun run =>
      RegisterVM.invokeMethod run receiver name args := by
  cases receiver with
  | inst i => exact invokeInstance i name
  | cls c =>
      apply bind
      rintro (_ | callable)
      · exact bind fun _ => throw _
      · exact body callable
  | nil | bool | int | real | str | func => exact throw _

theorem take
    (route : Route)
    (name : String) :
    Forwards receiver args fun run =>
      route.take run receiver name args := by
  cases route with
  | slot cls index =>
      cases receiver with
      | inst i =>
          simp only [Route.take]
          split
          next => exact invokeInstance i name
          next =>
            apply bind
            intro table
            split
            next => exact invokeInstance i name
            next =>
              split
              next => exact invokeInstance i name
              next callable _ => exact bind fun _ => body callable
      | nil | bool | int | real | str | cls | func =>
          exact invokeMethod name
  | direct callable visibility declaring =>
      cases receiver with
      | inst i => exact bind fun _ => body callable
      | nil | bool | int | real | str | cls | func =>
          exact body callable
  | classScope callable => exact body callable
  | generic => exact invokeMethod name
  | failure cause => exact throw _

theorem invokeSite
    (id : SiteId) :
    Forwards receiver args fun run =>
      RegisterVM.invokeSite run id receiver args := by
  unfold RegisterVM.invokeSite
  apply bind
  intro m
  cases m.world.sites[id]? with
  | none => exact throw _
  | some site =>
      apply bind
      intro heap
      dsimp only
      cases
        if site.tuning.enabled then heap.key? receiver
        else none with
      | none => exact bind fun _ => invokeMethod site.name
      | some key =>
          apply bind
          rintro (_ | route)
          · exact bind fun route =>
              bind fun _ => take route site.name
          · exact take route site.name

end Forwards

/- Every call runs the body it leads to, at its end, or none. -/
theorem Dispatch.forwards
    (dispatch : Dispatch) :
    Forwards dispatch.receiver dispatch.args fun run =>
      dispatch.action run := by
  cases dispatch with
  | method receiver name args => exact .invokeMethod name
  | site id receiver args => exact .invokeSite id

theorem Runner.native_arrive
    {discreet : Bool} :
    Runner.Native .arrive discreet :=
  fun _ _ _ => .pure _

------------------------------------------------------------
-- Routines
------------------------------------------------------------

/- What a body may do on its own. -/
inductive Deed : Type → Type 1 where
  | observe {α : Type} (look : Machine → α) : Deed α
  | change (step : HeapStep) : Deed Unit
  | setCaller (caller : Option ClassId) : Deed Unit
  | log (message : String) : Deed Unit
  | slotTable (cls : ClassId) : Deed SlotTable
  | resolve (cls : ClassId) (name : String) :
    Deed (Option Heap.Resolved)
  | resolveStatic (cls : ClassId) (name : String) :
    Deed (Option Callable)
  | canAccess (visibility : Visibility) (declaring : ClassId)
      (member : String) : Deed Bool

namespace Deed

/- Do it. -/
def action
    {α : Type} : Deed α → Action α
  | observe look => Action.observe look
  | change step => Action.change step
  | setCaller caller =>
    Action.modifyContext fun ctx => { ctx with caller }
  | log message =>
    Action.modifyWorld fun world =>
      { world with log := message :: world.log }
  | slotTable cls => Action.slotTable cls
  | resolve cls name => Action.resolve cls name
  | resolveStatic cls name => Action.resolveStatic cls name
  | canAccess visibility declaring member =>
    Action.canAccess visibility declaring member

/- It looks at nothing but the outline. -/
def Discreet
    {α : Type} : Deed α → Prop
  | observe look => Machine.Shows look
  | _ => True

theorem native_action
    {discreet : Bool}
    {α : Type}
    (deed : Deed α)
    (hDeed : discreet = true → deed.Discreet) :
    deed.action.Native discreet := by
  cases deed with
  | observe look => exact .observe look hDeed
  | change step => exact .change step
  | setCaller caller => exact .setCaller caller
  | log message => exact .log message
  | slotTable cls => exact .slotTable cls
  | resolve cls name => exact .resolve cls name
  | resolveStatic cls name => exact .resolveStatic cls name
  | canAccess visibility declaring member =>
      exact .canAccess visibility declaring member

/- It never ends in a fault. -/
theorem exists_value
    {α : Type}
    (deed : Deed α)
    (m : Machine) :
    ∃ value m', deed.action.run m = (.ok value, m') := by
  cases deed <;> exact ⟨_, _, rfl⟩

/- It leaves all sites alone. -/
theorem sites
    {α : Type}
    (deed : Deed α)
    (m : Machine) :
    (deed.action.run m).2.world.sites = m.world.sites := by
  cases deed <;> rfl

end Deed

/-
  A body, written out: its end, or what it does or calls next and
  how it goes on. A call comes with the bodies that it may run.
-/
inductive Routine : Type 1 where
  | done (result : Except Fault Value)
  | deed {α : Type} (deed : Deed α) (next : α → Routine)
  | call (bodies : Callable → Value → List Value → Routine)
      (dispatch : Dispatch)
      (next : Except Fault Value → Routine)

/- What the bodies of callables are. -/
abbrev Bodies :=
  Callable → Value → List Value → Routine

namespace Routine

/- Run a routine. -/
def action : Routine → Action Value
  | done result => MonadExcept.ofExcept result
  | deed d next => do
    let value ← d.action
    (next value).action
  | call bodies dispatch next => do
    let run : Runner := fun callable receiver args =>
      (bodies callable receiver args).action
    let result ← observing (dispatch.action run)
    (next result).action

/- All that it does, and all its bodies do, is discreet. -/
def Discreet : Routine → Prop
  | done _ => True
  | deed d next => d.Discreet ∧ ∀ value, (next value).Discreet
  | call bodies _ next =>
    (∀ callable receiver args,
      (bodies callable receiver args).Discreet) ∧
      ∀ result, (next result).Discreet

end Routine

namespace Bodies

/- Run callables by their bodies. -/
def runner
    (bodies : Bodies) : Runner :=
  fun callable receiver args =>
    (bodies callable receiver args).action

/- All bodies are discreet. -/
def Discreet
    (bodies : Bodies) : Prop :=
  ∀ callable receiver args,
    (bodies callable receiver args).Discreet

end Bodies

------------------------------------------------------------
-- Routines And Native Bodies
------------------------------------------------------------

/- A result of an action is seen, whether a value or a fault. -/
theorem Action.run_observing
    {α : Type}
    (action : Action α)
    (m : Machine) :
    (observing action).run m =
      (.ok (action.run m).1, (action.run m).2) := by
  unfold observing
  rw [Effect.run_tryCatch, Effect.run_bind]
  rcases action.run m with ⟨_ | value, m'⟩ <;> rfl

theorem Action.native_observing
    {discreet : Bool}
    {α : Type}
    {action : Action α}
    (hAction : action.Native discreet) :
    Action.Native discreet (observing action) := by
  unfold observing
  apply Native.tryCatch
  · exact hAction.bind fun value => .pure (Except.ok value)
  · exact fun fault => .pure (Except.error fault)

theorem Dispatch.native_action
    {discreet : Bool}
    {run : Runner}
    (hRun : run.Native discreet)
    (dispatch : Dispatch) :
    (dispatch.action run).Native discreet := by
  cases dispatch with
  | method receiver name args =>
      exact .invokeMethod run hRun receiver name args
  | site id receiver args =>
      exact .invokeSite run hRun id receiver args

namespace Routine

theorem run_done
    (result : Except Fault Value)
    (m : Machine) :
    (done result).action.run m = (result, m) := by
  cases result <;> rfl

theorem run_deed
    {α : Type}
    {d : Deed α}
    {m m' : Machine}
    {value : α}
    (hDeed : d.action.run m = (.ok value, m'))
    (next : α → Routine) :
    (deed d next).action.run m = (next value).action.run m' := by
  rw [action, Effect.run_bind, hDeed]

/- A call ends as the body that it leads to ends. -/
theorem run_call
    (bodies : Bodies)
    (dispatch : Dispatch)
    (next : Except Fault Value → Routine)
    (m : Machine) :
    (call bodies dispatch next).action.run m =
      match (dispatch.action bodies.runner).run m with
      | (result, m') => (next result).action.run m' := by
  rw [action, Effect.run_bind, Action.run_observing]
  rfl

/- Routines are native. -/
theorem native_action
    {discreet : Bool}
    (routine : Routine)
    (hRoutine : discreet = true → routine.Discreet) :
    routine.action.Native discreet := by
  induction routine with
  | done result =>
      cases result with
      | ok value => exact .pure value
      | error fault => exact .throw fault
  | deed d next ih =>
      apply (d.native_action fun hTrue => (hRoutine hTrue).1).bind
      intro value
      exact ih value fun hTrue => (hRoutine hTrue).2 value
  | call bodies dispatch next ihBodies ihNext =>
      have hRun : Runner.Native (Bodies.runner bodies) discreet :=
        fun callable receiver args =>
          ihBodies callable receiver args fun hTrue =>
            (hRoutine hTrue).1 callable receiver args
      apply (Action.native_observing (dispatch.native_action hRun)).bind
      intro result
      exact ihNext result fun hTrue => (hRoutine hTrue).2 result

end Routine

theorem Bodies.native_runner
    {discreet : Bool}
    (bodies : Bodies)
    (hBodies : discreet = true → bodies.Discreet) :
    bodies.runner.Native discreet :=
  fun callable receiver args =>
    (bodies callable receiver args).native_action fun hTrue =>
      hBodies hTrue callable receiver args

theorem Action.run_observing_bind
    {α β : Type}
    (action : Action α)
    (rest : Except Fault α → Action β)
    (m : Machine) :
    (observing action >>= rest).run m =
      (rest (action.run m).1).run (action.run m).2 := by
  rw [Effect.run_bind, run_observing]

namespace Routine

/- A routine that goes on from the result of an action. -/
def Extends
    {α : Type}
    (discreet : Bool)
    (action : Action α)
    (next : Except Fault α → Routine)
    (routine : Routine) : Prop :=
  (discreet = true → routine.Discreet) ∧
    routine.action =
      observing action >>= fun result => (next result).action

variable {discreet : Bool} {α : Type}

theorem extends_deed
    (d : Deed α)
    (hDeed : discreet = true → d.Discreet)
    {next : Except Fault α → Routine}
    (hNext : discreet = true → ∀ result, (next result).Discreet) :
    Extends discreet d.action next
      (deed d fun value => next (.ok value)) := by
  refine ⟨fun hTrue =>
    ⟨hDeed hTrue, fun value => hNext hTrue (.ok value)⟩, ?_⟩
  funext m
  rcases d.exists_value m with ⟨value, m', hValue⟩
  refine (run_deed hValue _).trans ?_
  refine Eq.trans ?_ (Action.run_observing_bind _ _ m).symm
  rw [hValue]

/- A routine that stops after an action is that action. -/
theorem Extends.action_eq
    {action : Action Value}
    {routine : Routine}
    (hExtends : Extends discreet action done routine) :
    routine.action = action := by
  rw [hExtends.2]
  funext m
  refine (Action.run_observing_bind action _ m).trans ?_
  exact run_done _ _

theorem extends_call
    {run : Runner}
    (dispatch : Dispatch)
    (hRun :
      ∀ callable receiver args,
        ∃ routine,
          Extends discreet (run callable receiver args) done
            routine)
    {next : Except Fault Value → Routine}
    (hNext : discreet = true → ∀ result, (next result).Discreet) :
    ∃ routine,
      Extends discreet (dispatch.action run) next routine := by
  choose bodies hBodies using hRun
  have hRunner : Bodies.runner bodies = run := by
    funext callable receiver args
    exact (hBodies callable receiver args).action_eq
  refine ⟨call bodies dispatch next, ?_, ?_⟩
  · intro hTrue
    refine ⟨?_, hNext hTrue⟩
    intro callable receiver args
    exact (hBodies callable receiver args).1 hTrue
  · rw [← hRunner]
    rfl

/- What is native can be written out. -/
theorem exists_extends
    {action : Action α}
    (hNative : action.Native discreet)
    {next : Except Fault α → Routine}
    (hNext : discreet = true → ∀ result, (next result).Discreet) :
    ∃ routine, Extends discreet action next routine := by
  induction hNative with
  | pure value =>
      exact ⟨next (.ok value), fun hTrue => hNext hTrue _, rfl⟩
  | throw fault =>
      exact ⟨next (.error fault), fun hTrue => hNext hTrue _, rfl⟩
  | @bind α β first rest _ _ ihFirst ihRest =>
      choose after hAfter using fun value => ihRest value hNext
      let go : Except Fault α → Routine
        | .ok value => after value
        | .error fault => next (.error fault)
      have hGo : discreet = true → ∀ result, (go result).Discreet := by
        rintro hTrue (fault | value)
        · exact hNext hTrue _
        · exact (hAfter value).1 hTrue
      rcases ihFirst hGo with ⟨routine, hDiscreet, hAction⟩
      refine ⟨routine, hDiscreet, ?_⟩
      rw [hAction]
      funext m
      refine (Action.run_observing_bind first _ m).trans ?_
      refine Eq.trans ?_ (Action.run_observing_bind _ _ m).symm
      rw [Effect.run_bind]
      rcases first.run m with ⟨fault | value, m'⟩
      · rfl
      · show (after value).action.run m' = _
        rw [(hAfter value).2]
        exact Action.run_observing_bind _ _ m'
  | @tryCatch α body handler _ _ ihBody ihHandler =>
      choose after hAfter using fun fault => ihHandler fault hNext
      let go : Except Fault α → Routine
        | .ok value => next (.ok value)
        | .error fault => after fault
      have hGo : discreet = true → ∀ result, (go result).Discreet := by
        rintro hTrue (fault | value)
        · exact (hAfter fault).1 hTrue
        · exact hNext hTrue _
      rcases ihBody hGo with ⟨routine, hDiscreet, hAction⟩
      refine ⟨routine, hDiscreet, ?_⟩
      rw [hAction]
      funext m
      refine (Action.run_observing_bind body _ m).trans ?_
      refine Eq.trans ?_ (Action.run_observing_bind _ _ m).symm
      rw [Effect.run_tryCatch]
      rcases body.run m with ⟨fault | value, m'⟩
      · show (after fault).action.run m' = _
        rw [(hAfter fault).2]
        exact Action.run_observing_bind _ _ m'
      · rfl
  | observe look hLook =>
      exact ⟨_, extends_deed (.observe look) hLook hNext⟩
  | change step =>
      exact ⟨_, extends_deed (.change step) (fun _ => trivial) hNext⟩
  | setCaller caller =>
      exact ⟨_,
        extends_deed (.setCaller caller) (fun _ => trivial) hNext⟩
  | log message =>
      exact ⟨_, extends_deed (.log message) (fun _ => trivial) hNext⟩
  | slotTable cls =>
      exact ⟨_,
        extends_deed (.slotTable cls) (fun _ => trivial) hNext⟩
  | resolve cls name =>
      exact ⟨_,
        extends_deed (.resolve cls name) (fun _ => trivial) hNext⟩
  | resolveStatic cls name =>
      exact ⟨_,
        extends_deed (.resolveStatic cls name) (fun _ => trivial)
          hNext⟩
  | canAccess visibility declaring member =>
      exact ⟨_,
        extends_deed (.canAccess visibility declaring member)
          (fun _ => trivial) hNext⟩
  | invokeMethod run _ receiver name args ihRun =>
      exact extends_call (.method receiver name args)
        (fun callable receiver args =>
          ihRun callable receiver args fun _ _ => trivial)
        hNext
  | invokeSite run _ id receiver args ihRun =>
      exact extends_call (.site id receiver args)
        (fun callable receiver args =>
          ihRun callable receiver args fun _ _ => trivial)
        hNext

end Routine

/- So every native way to run callables is that of some bodies. -/
theorem Runner.Native.exists_bodies
    {discreet : Bool}
    {run : Runner}
    (hRun : run.Native discreet) :
    ∃ bodies : Bodies,
      (discreet = true → bodies.Discreet) ∧
        bodies.runner = run := by
  have hEach :
      ∀ callable receiver args,
        ∃ routine,
          Routine.Extends discreet (run callable receiver args)
            .done routine :=
    fun callable receiver args =>
      Routine.exists_extends (hRun callable receiver args)
        fun _ _ => trivial
  choose bodies hBodies using hEach
  refine ⟨bodies, ?_, ?_⟩
  · intro hTrue callable receiver args
    exact (hBodies callable receiver args).1 hTrue
  · funext callable receiver args
    exact (hBodies callable receiver args).action_eq

------------------------------------------------------------
-- Calls
------------------------------------------------------------

/- A call that is made, and the machine it is made on. -/
structure Call where
  dispatch : Dispatch
  machine : Machine

/- Where a call leads. -/
def Call.landing
    (call : Call) : Except Fault Callable × Machine :=
  RegisterVM.landing call.dispatch.action call.machine

/- The calls that a routine makes on a machine, in order. -/
def Routine.calls : Routine → Machine → List Call
  | done _, _ => []
  | deed d next, m =>
    match d.action.run m with
    | (.ok value, m') => (next value).calls m'
    | (.error _, _) => []
  | call bodies dispatch next, m =>
    let inner :=
      match Call.landing ⟨dispatch, m⟩ with
      | (.ok body, m') =>
        (bodies body dispatch.receiver dispatch.args).calls m'
      | (.error _, _) => []
    let after :=
      match (dispatch.action (Bodies.runner bodies)).run m with
      | (result, m') => (next result).calls m'
    ⟨dispatch, m⟩ :: inner ++ after

/-
  What is known of deeds and of where calls lead, and carries
  over from part to part, holds of every run and its calls.
-/
theorem Routine.run_induction
    {P : Machine → List Call → Machine → Prop}
    (hNone : ∀ m, P m [] m)
    (hAppend :
      ∀ {m m' m'' calls calls'},
        P m calls m' → P m' calls' m'' →
        P m (calls ++ calls') m'')
    (hDeed :
      ∀ {α : Type} (d : Deed α) m, P m [] (d.action.run m).2)
    (hCall : ∀ call : Call, P call.machine [call] call.landing.2)
    (routine : Routine)
    (m : Machine) :
    P m (routine.calls m) (routine.action.run m).2 := by
  induction routine generalizing m with
  | done result =>
      rw [run_done]
      exact hNone m
  | deed d next ih =>
      rcases hRun : d.action.run m with ⟨result, m'⟩
      rcases d.exists_value m with ⟨value, m'', hValue⟩
      rw [hRun] at hValue
      cases hValue
      have hFirst := hDeed d m
      rw [hRun] at hFirst
      rw [run_deed hRun, calls, hRun]
      exact hAppend hFirst (ih value m')
  | call bodies dispatch next ihBodies ihNext =>
      have hFirst := hCall ⟨dispatch, m⟩
      have hRun := dispatch.forwards (Bodies.runner bodies) m
      have hLanding :
          landing dispatch.action m = Call.landing ⟨dispatch, m⟩ :=
        rfl
      rw [run_call, calls, hRun, hLanding]
      rcases hLand : Call.landing ⟨dispatch, m⟩ with
        ⟨fault | body, m'⟩
      · rw [hLand] at hFirst
        exact hAppend hFirst (ihNext (.error fault) m')
      · rw [hLand] at hFirst
        have hBody :=
          ihBodies body dispatch.receiver dispatch.args m'
        exact hAppend (hAppend hFirst hBody) (ihNext _ _)

/-
  What deeds keep, and is kept until a body starts, holds at the
  end of a run and whenever it makes a call.
-/
theorem Routine.holds_calls
    {I : Machine → Prop}
    (hDeed :
      ∀ {α : Type} (d : Deed α) m, I m → I (d.action.run m).2)
    (hCall : ∀ call : Call, I call.machine → I call.landing.2)
    (routine : Routine)
    {m : Machine}
    (hStart : I m) :
    I (routine.action.run m).2 ∧
      ∀ call ∈ routine.calls m, I call.machine := by
  apply Routine.run_induction
    (P := fun m calls m' =>
      I m → I m' ∧ ∀ call ∈ calls, I call.machine)
  · exact fun m hStart => ⟨hStart, nofun⟩
  · intro m m' m'' calls calls' hFirst hSecond hStart
    have hMiddle := hFirst hStart
    have hEnd := hSecond hMiddle.1
    refine ⟨hEnd.1, ?_⟩
    intro call hMem
    rcases List.mem_append.mp hMem with hEarly | hLate
    · exact hMiddle.2 call hEarly
    · exact hEnd.2 call hLate
  · exact fun d m hStart => ⟨hDeed d m hStart, nofun⟩
  · intro call hStart
    refine ⟨hCall call hStart, ?_⟩
    intro other hMem
    rw [List.mem_singleton.mp hMem]
    exact hStart
  · exact hStart

theorem Deed.coherent_action
    {α : Type}
    (deed : Deed α)
    {m : Machine}
    (hMachine : m.Coherent) :
    (deed.action.run m).2.Coherent := by
  have hNative : deed.action.Native false :=
    deed.native_action nofun
  exact hNative.keeps m hMachine

/- Where a call leads, machines are still coherent. -/
theorem Call.coherent_landing
    {call : Call}
    (hMachine : call.machine.Coherent) :
    call.landing.2.Coherent := by
  have hNative :
      (call.dispatch.action .arrive).Native false :=
    call.dispatch.native_action Runner.native_arrive
  rw [landing, snd_landing]
  exact hNative.keeps call.machine hMachine

/- Calls are made on coherent machines. -/
theorem Routine.coherent_calls
    (routine : Routine)
    {m : Machine}
    (hMachine : m.Coherent)
    {call : Call}
    (hCall : call ∈ routine.calls m) :
    call.machine.Coherent := by
  have hAll :=
    routine.holds_calls (fun d _ => d.coherent_action)
      (fun _ => Call.coherent_landing) hMachine
  exact hAll.2 call hCall

end RegisterVM
