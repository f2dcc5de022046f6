import RegisterVM.Proofs.Dispatch.Agreement

/-
  Dispatch keeps machines coherent, whatever the bodies that it
  runs look at, as long as these bodies keep machines coherent
  themselves.

  Key definitions include:
    * `Action.Keeps`

  Key theorems include:
    * `Action.Keeps.bind`
    * `Action.Keeps.invokeMethod`
    * `Action.Keeps.invokeSite`
-/

namespace RegisterVM

namespace Action

/- An action after which coherent machines are coherent. -/
def Keeps
    {α : Type}
    (action : Action α) : Prop :=
  ∀ m, m.Coherent → (action.run m).2.Coherent

namespace Keeps

------------------------------------------------------------
-- Basic Actions
------------------------------------------------------------

variable {α β : Type}

theorem of_yields
    {action : Action α}
    (value : Machine → α)
    (hYields : ∀ m, m.Coherent → Yields action m (value m)) :
    Keeps action := by
  intro m hMachine
  rcases hYields m hMachine with ⟨m', hRun, hAlike⟩
  rw [hRun]
  exact hAlike.left

theorem pure
    (value : α) :
    Keeps (Pure.pure value) :=
  fun _ hMachine => hMachine

theorem throw
    (fault : Fault) :
    Keeps (MonadExcept.throw fault : Action α) :=
  fun _ hMachine => hMachine

theorem observe
    (look : Machine → α) :
    Keeps (Action.observe look) :=
  fun _ hMachine => hMachine

theorem bind
    {first : Action α}
    {rest : α → Action β}
    (hFirst : Keeps first)
    (hRest : ∀ value, Keeps (rest value)) :
    Keeps (first >>= rest) := by
  intro m hMachine
  have hMiddle := hFirst m hMachine
  rw [Effect.run_bind]
  rcases hRun : first.run m with ⟨_ | value, m'⟩
  · rw [hRun] at hMiddle
    exact hMiddle
  · rw [hRun] at hMiddle
    exact hRest value m' hMiddle

theorem tryCatch
    {body : Action α}
    {handler : Fault → Action α}
    (hBody : Keeps body)
    (hHandler : ∀ fault, Keeps (handler fault)) :
    Keeps (MonadExcept.tryCatch body handler) := by
  intro m hMachine
  have hMiddle := hBody m hMachine
  rw [Effect.run_tryCatch]
  rcases hRun : body.run m with ⟨fault | _, m'⟩
  · rw [hRun] at hMiddle
    exact hHandler fault m' hMiddle
  · rw [hRun] at hMiddle
    exact hMiddle

theorem change
    (step : HeapStep) :
    Keeps (Action.change step) := by
  intro m hMachine
  have hStep := hMachine.heap.step step
  exact hMachine.withHeap hStep.1 hStep.2

theorem modifyContext
    (change : Context → Context) :
    Keeps (Action.modifyContext change) :=
  fun _ hMachine => ⟨hMachine.heap, hMachine.sites⟩

theorem log
    (message : String) :
    Keeps
      (modifyWorld fun world =>
        { world with log := message :: world.log }) :=
  fun _ hMachine => ⟨hMachine.heap, hMachine.sites⟩

theorem slotTable
    (cls : ClassId) :
    Keeps (Action.slotTable cls) :=
  of_yields _ fun _ hMachine => .slotTable hMachine cls

theorem resolve
    (cls : ClassId)
    (name : String) :
    Keeps (Action.resolve cls name) :=
  of_yields _ fun _ hMachine => .resolve hMachine cls name

theorem resolveStatic
    (cls : ClassId)
    (name : String) :
    Keeps (Action.resolveStatic cls name) :=
  of_yields _ fun _ hMachine => .resolveStatic hMachine cls name

theorem canAccess
    (visibility : Visibility)
    (declaring : ClassId)
    (member : String) :
    Keeps (Action.canAccess visibility declaring member) :=
  fun _ hMachine => ⟨hMachine.heap, hMachine.sites⟩

theorem checkAccess
    (visibility : Visibility)
    (declaring : ClassId)
    (member : String)
    (owner : ClassId) :
    Keeps
      (Action.checkAccess visibility declaring member owner) := by
  apply (canAccess visibility declaring member).bind
  intro answer
  cases answer with
  | true => exact pure ()
  | false => exact (observe _).bind fun _ => throw _

------------------------------------------------------------
-- Dispatch
------------------------------------------------------------

variable {run : Runner}

theorem invokeInstance
    (hRun :
      ∀ callable receiver args,
        Keeps (run callable receiver args))
    (i : Instance)
    (name : String)
    (args : List Value) :
    Keeps (RegisterVM.invokeInstance run i name args) := by
  unfold RegisterVM.invokeInstance
  apply (resolve i.cls name).bind
  rintro (_ | ⟨record, slot⟩)
  · exact (observe _).bind fun _ => throw _
  · cases hBody : record.body with
    | none =>
        simp only [hBody]
        exact (observe _).bind fun _ => throw _
    | some body =>
        simp only [hBody]
        apply (checkAccess _ _ _ _).bind
        intro _
        cases slot with
        | none => exact hRun body (.inst i) args
        | some slot =>
            apply (slotTable i.cls).bind
            intro table
            exact hRun _ (.inst i) args

theorem invokeMethod
    (hRun :
      ∀ callable receiver args,
        Keeps (run callable receiver args))
    (receiver : Value)
    (name : String)
    (args : List Value) :
    Keeps (RegisterVM.invokeMethod run receiver name args) := by
  cases receiver with
  | inst i => exact invokeInstance hRun i name args
  | cls c =>
      apply (resolveStatic c name).bind
      rintro (_ | body)
      · exact (observe _).bind fun _ => throw _
      · exact hRun body (.cls c) args
  | nil | bool | int | real | str | func => exact throw _

/- Taking any route keeps machines coherent. -/
theorem take
    (hRun :
      ∀ callable receiver args,
        Keeps (run callable receiver args))
    (route : Route)
    (receiver : Value)
    (name : String)
    (args : List Value) :
    Keeps (route.take run receiver name args) := by
  cases route with
  | slot cls index =>
      cases receiver with
      | inst i =>
          simp only [Route.take]
          split
          next => exact invokeInstance hRun i name args
          next =>
            apply (slotTable i.cls).bind
            intro table
            split
            next => exact invokeInstance hRun i name args
            next =>
              split
              next => exact invokeInstance hRun i name args
              next body _ =>
                exact (checkAccess _ _ _ _).bind
                  fun _ => hRun body (.inst i) args
      | nil | bool | int | real | str | cls | func =>
          exact invokeMethod hRun _ name args
  | direct callable visibility declaring =>
      cases receiver with
      | inst i =>
          exact (checkAccess _ _ _ _).bind
            fun _ => hRun callable (.inst i) args
      | nil | bool | int | real | str | cls | func =>
          exact hRun callable _ args
  | classScope callable => exact hRun callable receiver args
  | generic => exact invokeMethod hRun receiver name args
  | failure cause => exact throw _

theorem invokeSite
    (hRun :
      ∀ callable receiver args,
        Keeps (run callable receiver args))
    (id : SiteId)
    (receiver : Value)
    (args : List Value) :
    Keeps (RegisterVM.invokeSite run id receiver args) := by
  intro m hMachine
  cases hSite : m.world.sites[id]? with
  | none =>
      unfold RegisterVM.invokeSite
      rw [Effect.run_get_bind, hSite]
      exact hMachine
  | some site =>
      rcases reaches_invokeSite run hMachine hSite receiver args
        with ⟨action, hAction, m', hAlike, hEnd⟩
      rw [hEnd]
      rcases hAction with hByName | ⟨key, _, hRoute⟩
      · rw [hByName]
        exact invokeMethod hRun receiver site.name args m'
          hAlike.left
      · rw [hRoute]
        exact take hRun _ receiver site.name args m' hAlike.left

end Keeps

end Action

end RegisterVM
