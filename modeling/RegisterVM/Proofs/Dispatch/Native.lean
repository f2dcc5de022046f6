import RegisterVM.Proofs.Dispatch.Coherence

/-
  Native bodies: what the body of a method may be made of. A body
  may compute, raise and catch faults, look at the machine, change
  classes, switch the calling class, and call methods and sites,
  whose bodies are native again. A discreet body looks at no
  counters, reported events, kept tables or entries of sites.
  Native bodies keep machines coherent, discreet ones depend on
  outlines only, and all bodies that are described by data are
  discreet.

  Key definitions include:
    * `Machine.Shows`
    * `Action.Native`
    * `Runner.Native`

  Key theorems include:
    * `Action.Native.keeps`
    * `Action.Native.similar`
    * `Body.native_step`
    * `Callable.native_call`
-/

namespace RegisterVM

------------------------------------------------------------
-- Native Actions
------------------------------------------------------------

/- The outline determines what is looked at. -/
def Machine.Shows
    {α : Type}
    (look : Machine → α) : Prop :=
  ∀ m₁ m₂ : Machine, m₁.outline = m₂.outline →
    look m₁ = look m₂

theorem Machine.shows_of_outline
    {α : Type}
    (look : Outline → α) :
    Machine.Shows fun m => look m.outline :=
  fun _ _ hOutline => congrArg look hOutline

namespace Action

/-
  What the body of a method may be made of, discreet or not.
-/
inductive Native
    (discreet : Bool) : {α : Type} → Action α → Prop where
  | pure {α : Type} (value : α) :
    Native discreet (Pure.pure value : Action α)
  | throw {α : Type} (fault : Fault) :
    Native discreet (MonadExcept.throw fault : Action α)
  | bind {α β : Type} {first : Action α} {rest : α → Action β}
      (hFirst : Native discreet first)
      (hRest : ∀ value, Native discreet (rest value)) :
    Native discreet (first >>= rest)
  | tryCatch {α : Type} {body : Action α}
      {handler : Fault → Action α}
      (hBody : Native discreet body)
      (hHandler : ∀ fault, Native discreet (handler fault)) :
    Native discreet (MonadExcept.tryCatch body handler)
  /- Look at anything, or only at what the outline shows. -/
  | observe {α : Type} (look : Machine → α)
      (hLook : discreet = true → Machine.Shows look) :
    Native discreet (observe look)
  /- Create classes and objects, and change members. -/
  | change (step : HeapStep) : Native discreet (change step)
  | setCaller (caller : Option ClassId) :
    Native discreet (modifyContext fun ctx => { ctx with caller })
  | log (message : String) :
    Native discreet
      (modifyWorld fun world =>
        { world with log := message :: world.log })
  | slotTable (cls : ClassId) : Native discreet (slotTable cls)
  | resolve (cls : ClassId) (name : String) :
    Native discreet (resolve cls name)
  | resolveStatic (cls : ClassId) (name : String) :
    Native discreet (resolveStatic cls name)
  | canAccess (visibility : Visibility) (declaring : ClassId)
      (member : String) :
    Native discreet (canAccess visibility declaring member)
  /- Call a method or a site, whose bodies are native. -/
  | invokeMethod (run : Runner)
      (hRun :
        ∀ callable receiver args,
          Native discreet (run callable receiver args))
      (receiver : Value) (name : String) (args : List Value) :
    Native discreet (invokeMethod run receiver name args)
  | invokeSite (run : Runner)
      (hRun :
        ∀ callable receiver args,
          Native discreet (run callable receiver args))
      (id : SiteId) (receiver : Value) (args : List Value) :
    Native discreet (invokeSite run id receiver args)

namespace Native

/- Native actions keep machines coherent. -/
theorem keeps
    {discreet : Bool}
    {α : Type}
    {action : Action α}
    (hNative : action.Native discreet) :
    Keeps action := by
  induction hNative with
  | pure value => exact .pure value
  | throw fault => exact .throw fault
  | bind _ _ ihFirst ihRest => exact ihFirst.bind ihRest
  | tryCatch _ _ ihBody ihHandler =>
      exact ihBody.tryCatch ihHandler
  | observe look _ => exact .observe look
  | change step => exact .change step
  | setCaller caller => exact .modifyContext _
  | log message => exact .log message
  | slotTable cls => exact .slotTable cls
  | resolve cls name => exact .resolve cls name
  | resolveStatic cls name => exact .resolveStatic cls name
  | canAccess visibility declaring member =>
      exact .canAccess visibility declaring member
  | invokeMethod run _ receiver name args ihRun =>
      exact .invokeMethod ihRun receiver name args
  | invokeSite run _ id receiver args ihRun =>
      exact .invokeSite ihRun id receiver args

/- Discreet actions depend on outlines only. -/
theorem similar
    {α : Type}
    {action : Action α}
    (hNative : action.Native true) :
    Similar action action := by
  induction hNative with
  | pure value => exact .pure value
  | throw fault => exact .throw fault
  | bind _ _ ihFirst ihRest => exact ihFirst.bind ihRest
  | tryCatch _ _ ihBody ihHandler =>
      exact ihBody.tryCatch ihHandler
  | observe look hLook => exact .observe (hLook rfl)
  | change step => exact .change step
  | setCaller caller => exact .setCaller caller
  | log message => exact .log message
  | slotTable cls => exact .slotTable cls
  | resolve cls name => exact .resolve cls name
  | resolveStatic cls name => exact .resolveStatic cls name
  | canAccess visibility declaring member =>
      exact .canAccess visibility declaring member
  | invokeMethod run _ receiver name args ihRun =>
      exact .invokeMethod ihRun receiver name args
  | invokeSite run _ id receiver args ihRun =>
      exact .invokeSite ihRun id receiver args

end Native

end Action

/- A runner whose bodies are native, discreet or not. -/
def Runner.Native
    (run : Runner)
    (discreet : Bool) : Prop :=
  ∀ callable receiver args,
    Action.Native discreet (run callable receiver args)

------------------------------------------------------------
-- Names And Expressions
------------------------------------------------------------

namespace Action

namespace Native

variable {discreet : Bool} {α β : Type}

/- What depends on the bare heap only is read off the outline. -/
theorem observeHeap
    (look : Heap → α)
    (hLook : ∀ heap : Heap, look heap.bare = look heap) :
    Native discreet (Action.observe fun m => look m.world.heap) := by
  apply observe
  intro _ m₁ m₂ hOutline
  have hHeap := congrArg Outline.heap hOutline
  simp only [Machine.outline] at hHeap
  dsimp only
  rw [← hLook m₁.world.heap, hHeap, hLook]

/- Looking a name up is looking at the machine and then choosing. -/
theorem named_eq_observe_bind
    (kind : Named)
    (names : Directory → List (String × α))
    (name : String) :
    Action.named kind names name =
      (Action.observe fun m => (names m.world.names).lookup name)
        >>= fun found =>
          found.elim (MonadExcept.throw (.unbound kind name))
            Pure.pure := by
  funext m
  show
    (Action.named kind names name).run m =
      (((names m.world.names).lookup name).elim
        (MonadExcept.throw (.unbound kind name)) Pure.pure :
          Action α).run m
  unfold Action.named
  rw [Effect.run_get_bind]
  cases (names m.world.names).lookup name <;> rfl

/- What a name stands for is part of the outline. -/
theorem named
    (kind : Named)
    (names : Directory → List (String × α))
    (name : String) :
    Native discreet (Action.named kind names name) := by
  rw [named_eq_observe_bind]
  have hShows :=
    Machine.shows_of_outline fun outline =>
      (names outline.names).lookup name
  apply (observe _ fun _ => hShows).bind
  rintro (_ | value)
  · exact throw (.unbound kind name)
  · exact pure value

theorem instantiate
    (cls : ClassId) :
    Native discreet (Action.instantiate cls) :=
  (observeHeap (fun heap => (heap.newInstance cls).1)
    fun _ => rfl).bind fun i =>
      (change .newObject).bind fun _ => pure (Value.inst i)

theorem newCallable
    (name : String)
    (body : Body) :
    Native discreet (Action.newCallable name body) :=
  (observeHeap (fun heap => (heap.newCallable name body).1)
    fun _ => rfl).bind fun callable =>
      (change .newObject).bind fun _ => pure callable

theorem map
    {action : Action α}
    (f : α → β)
    (hAction : Native discreet action) :
    Native discreet (f <$> action) := by
  rw [← bind_pure_comp]
  exact hAction.bind fun value => pure (f value)

theorem mapM
    {f : α → Action β}
    (hEach : ∀ a, Native discreet (f a))
    (as : List α) :
    Native discreet (as.mapM f) := by
  induction as with
  | nil => exact pure []
  | cons a as ih =>
      rw [List.mapM_cons]
      exact (hEach a).bind fun b =>
        ih.bind fun bs => pure (b :: bs)

end Native

end Action

open RegisterVM.Action in
theorem Expr.native_eval
    {discreet : Bool}
    (e : Expr)
    (receiver : Value)
    (args : List Value) :
    Native discreet (e.eval receiver args) := by
  cases e with
  | nil | bool | int | real | str | self | arg =>
      exact .pure _
  | inst name | cls name | func name =>
      exact (Native.named _ _ name).bind fun _ => .pure _
  | fresh name =>
      exact (Native.named _ _ name).bind fun cls =>
        .instantiate cls
  | caller =>
      have hEval :
          Expr.caller.eval receiver args =
            observe fun m =>
              m.context.caller.elim Value.nil Value.cls := by
        funext m
        show
          (Expr.caller.eval receiver args).run m =
            (.ok (m.context.caller.elim Value.nil Value.cls), m)
        unfold Expr.eval
        rw [Effect.run_get_bind]
        cases m.context.caller <;> rfl
      rw [hEval]
      exact .observe _ fun _ =>
        Machine.shows_of_outline fun outline =>
          outline.caller.elim Value.nil Value.cls

------------------------------------------------------------
-- Bodies
------------------------------------------------------------

/- Texts of values are read off the outline. -/
theorem Heap.text_bare
    (heap : Heap) :
    heap.bare.text = heap.text := by
  funext value
  cases value with
  | inst i => rw [text, text, className_bare]
  | cls c => rw [text, text, className_bare]
  | nil | bool | int | real | str | func => rfl

section Bodies

open RegisterVM.Action

variable {discreet : Bool}

theorem native_withCaller
    {α : Type}
    (caller : Option ClassId)
    {action : Action α}
    (hAction : Native discreet action) :
    Native discreet (withCaller caller action) := by
  have hPrevious :
      Native discreet (observe fun m => m.context.caller) :=
    .observe _ fun _ => Machine.shows_of_outline Outline.caller
  show
    Native discreet
      (observe (fun m => m.context.caller) >>= fun previous => do
        modifyContext fun ctx => { ctx with caller }
        try
          let result ← action
          modifyContext fun ctx => { ctx with caller := previous }
          return result
        catch fault =>
          modifyContext fun ctx => { ctx with caller := previous }
          MonadExcept.throw fault)
  apply hPrevious.bind
  intro previous
  apply (Native.setCaller caller).bind
  intro _
  apply Native.bind
  · apply Native.tryCatch
    · apply hAction.bind
      intro result
      exact (Native.setCaller previous).bind fun _ => .pure _
    · intro fault
      exact (Native.setCaller previous).bind fun _ =>
        (Native.throw fault).bind fun _ => .pure _
  · rintro (result | result) <;> exact .pure _

/- A body is native if the bodies that it starts are. -/
theorem Body.native_step
    {eval : Body → Value → List Value → Action Value}
    (hEval :
      ∀ body receiver args, Native discreet (eval body receiver args))
    (body : Body)
    (receiver : Value)
    (args : List Value) :
    Native discreet (body.step eval receiver args) := by
  have hRun :
      ∀ (callable : Callable) receiver args,
        Native discreet (eval callable.body receiver args) :=
    fun callable => hEval callable.body
  have hArgs :
      ∀ passed : List Expr,
        Native discreet (passed.mapM fun e => e.eval receiver args) :=
    fun passed =>
      .mapM (fun e => e.native_eval receiver args) passed
  cases body with
  | const e => exact e.native_eval receiver args
  | argc | sum => exact .pure _
  | join =>
      exact .observeHeap
        (fun heap =>
          Value.str ("|".intercalate (args.map heap.text)))
        fun heap => by rw [heap.text_bare]
  | fail message => exact .throw _
  | raise owner member => exact .throw _
  | site name target passed =>
      exact (Native.named _ _ name).bind fun id =>
        (target.native_eval receiver args).bind fun target =>
          (hArgs passed).bind fun passed =>
            .invokeSite _ hRun id target passed
  | method member target passed =>
      exact (target.native_eval receiver args).bind
        fun target =>
          (hArgs passed).bind fun passed =>
            .invokeMethod _ hRun target member passed
  | countdown name =>
      rcases args with _ | ⟨first, _ | ⟨second, rest⟩⟩
      · exact .throw _
      · cases first with
        | int n =>
            show Native discreet (if n ≤ 0 then _ else _)
            split
            next => exact .pure _
            next =>
              apply (Native.named _ _ name).bind
              intro id
              apply (Native.invokeSite _ hRun id receiver _).bind
              intro value
              cases value with
              | int rest => exact .pure _
              | nil | bool | real | str | inst | cls | func =>
                  exact (Native.observeHeap
                    (fun heap => heap.text _)
                    fun heap => by rw [heap.text_bare]).bind
                      fun text => .throw (.unexpected text)
        | nil | bool | real | str | inst | cls | func =>
            exact .throw _
      · cases first <;> exact .throw _
  | define className member visibility label inner =>
      exact (Native.named _ _ className).bind fun cls =>
        (Native.newCallable label inner).bind fun callable =>
          (Native.change
            (.define cls member visibility (some callable))).bind
              fun _ => .pure _
  | declare className member visibility =>
      exact (Native.named _ _ className).bind fun cls =>
        (Native.change (.define cls member visibility none)).bind
          fun _ => .pure _
  | defineStatic className member label inner =>
      exact (Native.named _ _ className).bind fun cls =>
        (Native.newCallable label inner).bind fun callable =>
          (Native.change
            (.defineStatic cls member callable)).bind
              fun _ => .pure _
  | undefine className member =>
      exact (Native.named _ _ className).bind fun cls =>
        (Native.observeHeap
          (fun heap => (heap.removeMethod cls member).1)
          fun heap => (heap.bare_removeMethod cls member).1.symm).bind
            fun removed =>
              (Native.change (.remove cls member)).bind
                fun _ => .pure (Value.bool removed)
  | asCaller className inner =>
      have hCaller :
          Native discreet (className.mapM Action.classNamed) := by
        cases className with
        | none => exact .pure none
        | some name =>
            exact .map some (.named _ _ name)
      exact hCaller.bind fun caller =>
        native_withCaller caller (hEval inner receiver args)
  | andThen first second =>
      exact (Native.map (fun _ => ())
        (hEval first receiver args)).bind
          fun _ => hEval second receiver args
  | catching inner =>
      apply Native.bind
      · apply Native.tryCatch
        · exact (hEval inner receiver args).bind fun _ => .pure _
        · intro fault
          cases fault with
          | exhausted =>
              exact (Native.throw _).bind fun _ => .pure _
          | dispatch | failed | countdownArgs | unexpected
          | unbound => exact .pure _
      · rintro (result | result) <;> exact .pure _
  | log message =>
      exact (Native.log message).bind fun _ => .pure _

/- All bodies are discreet, however deep they may nest. -/
theorem Body.native_eval
    (allowance : Nat)
    (body : Body)
    (receiver : Value)
    (args : List Value) :
    Native discreet (body.eval allowance receiver args) := by
  induction allowance generalizing body receiver args with
  | zero => exact .throw _
  | succ allowance ih =>
      exact body.native_step ih receiver args

theorem Callable.native_call
    (allowance : Nat) :
    Runner.Native (Callable.call allowance) discreet :=
  fun callable => callable.body.native_eval allowance

end Bodies

end RegisterVM
