import RegisterVM.Proofs.Dispatch.Routines

/-
  Who may call what. The verdict on a call is read off the nearest
  declaration of the member, the calling class and the policy: the
  one question that is put to the policy, if any, and the body or
  the fault that the call leads to. Calls by name and calls through
  sites of coherent machines follow the same verdict.

  Key definitions include:
    * `Verdict`
    * `Machine.verdict`
    * `Call.Follows`

  Key theorems include:
    * `invokeMethod_verdict`
    * `Call.follows_of_coherent`
-/

namespace RegisterVM

------------------------------------------------------------
-- Verdicts
------------------------------------------------------------

/- The question put to the policy, and where the call leads. -/
structure Verdict where
  asked : Option Query
  ending : Except Fault Callable

namespace Machine

/- The answer of the policy to a question. -/
def permits
    (m : Machine)
    (query : Query) : Bool :=
  m.context.policy.permits query.visibility query.declaring
    (query.caller.map m.world.heap.lineage) query.member

/-
  The verdict on a call. A method with a body is asked for, by the
  visibility and the class of its very record, and may be refused
  in the name of the class of the receiver. Nothing is asked for a
  method that is missing or abstract, for a class-scope member, or
  for plain data.
-/
def verdict
    (m : Machine)
    (receiver : Value)
    (name : String) : Verdict :=
  let heap := m.world.heap
  match receiver with
  | .inst i =>
    let owner := heap.className i.cls
    match heap.nearest? (heap.lineage i.cls) name with
    | none => ⟨none, .error (.dispatch (.notFound owner name))⟩
    | some record =>
      match record.body with
      | none => ⟨none, .error (.dispatch (.abstractMember owner name))⟩
      | some body =>
        let query : Query :=
          ⟨record.visibility, record.declaring, m.context.caller, name⟩
        if m.permits query then
          ⟨some query, .ok body⟩
        else
          ⟨some query,
            .error
              (.dispatch
                (.illegalAccess record.visibility owner name))⟩
  | .cls c =>
    match heap.resolveStatic c name with
    | some body => ⟨none, .ok body⟩
    | none =>
      ⟨none,
        .error
          (.dispatch
            (.notFound (classScopeOwner (heap.className c)) name))⟩
  | other =>
    ⟨none, .error (.dispatch (.notFound other.typeName name))⟩

/- The machine after a question, if one was asked. -/
def asking
    (m : Machine)
    (asked : Option Query) : Machine :=
  m.withContext
    { m.context with
      stats :=
        { m.context.stats with
          accessChecks :=
            m.context.stats.accessChecks + asked.toList.length }
      queries := asked.toList ++ m.context.queries }

/- A check of access asks one question and heeds the answer. -/
theorem run_checkAccess
    (m : Machine)
    (visibility : Visibility)
    (declaring : ClassId)
    (member : String)
    (owner : ClassId) :
    let query : Query :=
      ⟨visibility, declaring, m.context.caller, member⟩
    (Action.checkAccess visibility declaring member owner).run m =
      (if m.permits query then .ok ()
        else
          .error
            (.dispatch
              (.illegalAccess visibility
                (m.world.heap.className owner) member)),
        m.asking (some query)) := by
  intro query
  have hAsk :
      (Action.canAccess visibility declaring member).run m =
        (.ok (m.permits query), m.asking (some query)) :=
    rfl
  unfold Action.checkAccess
  rw [Effect.run_bind, hAsk]
  cases m.permits query <;> rfl

end Machine

------------------------------------------------------------
-- Calls By Name
------------------------------------------------------------

section ByName

open RegisterVM.Action

theorem Runner.steady_arrive :
    Steady .arrive :=
  fun callable receiver args =>
    (Runner.native_arrive callable receiver args).similar

/-
  A call by name asks what the verdict says is asked, and leads
  where the verdict says.
-/
theorem invokeMethod_verdict
    {m : Machine}
    (hMachine : m.Coherent)
    (receiver : Value)
    (name : String)
    (args : List Value) :
    Agree ((invokeMethod .arrive receiver name args).run m)
      ((m.verdict receiver name).ending.map .func,
        m.asking (m.verdict receiver name).asked) := by
  cases receiver with
  | inst i =>
      cases hNearest :
          m.world.heap.nearest? (m.world.heap.lineage i.cls) name
        with
      | none =>
          have hFound : m.world.heap.found? i.cls name = none := by
            rw [Heap.found?, hNearest]
            rfl
          simp only [Machine.verdict, hNearest]
          apply (Yields.resolve hMachine i.cls name).agree
          intro m' hAlike
          rw [hFound, ← (hAlike.sameLayout i.cls).className]
          exact ⟨rfl, hAlike⟩
      | some record =>
          have hFound :
              ∃ slot, m.world.heap.found? i.cls name =
                some ⟨record, slot⟩ := by
            rw [Heap.found?, hNearest]
            exact ⟨_, rfl⟩
          rcases hFound with ⟨slot, hFound⟩
          cases hBody : record.body with
          | none =>
              simp only [Machine.verdict, hNearest, hBody]
              apply (Yields.resolve hMachine i.cls name).agree
              intro m' hAlike
              rw [hFound, ← (hAlike.sameLayout i.cls).className]
              simp only [hBody]
              exact ⟨rfl, hAlike⟩
          | some body =>
              have hCall :=
                invokeInstance_agree Runner.steady_arrive hMachine
                  hFound hBody args
              refine hCall.trans ?_
              have hAlike := Machine.Alike.refl hMachine
              have hCheck :=
                Similar.checkAccess record.visibility
                  record.declaring name i.cls m m hAlike
              simp only [Machine.verdict, hNearest, hBody]
              unfold guarded
              rw [Effect.run_bind]
              rw [m.run_checkAccess] at hCheck ⊢
              have hAfter := hCheck.machine
              split at hCheck
              next hPermits =>
                simp only [hPermits, if_true]
                exact ⟨rfl, hAfter⟩
              next hPermits =>
                simp only [hPermits]
                exact ⟨rfl, hAfter⟩
  | cls c =>
      apply (Yields.resolveStatic hMachine c name).agree
      intro m' hAlike
      simp only [Machine.verdict]
      cases m.world.heap.resolveStatic c name with
      | none =>
          rw [← (hAlike.sameLayout c).className]
          exact ⟨rfl, hAlike⟩
      | some body => exact ⟨rfl, hAlike⟩
  | nil | bool | int | real | str | func =>
      exact ⟨rfl, .refl hMachine⟩

end ByName

------------------------------------------------------------
-- All Calls
------------------------------------------------------------

/- The name of the member that is called. -/
def Call.name?
    (call : Call) : Option String :=
  match call.dispatch with
  | .method _ name _ => some name
  | .site id _ _ => call.machine.world.sites[id]?.map Site.name

/-
  A call asks what the verdict says and no more, and leads where
  the verdict says. Running it is running that body right then,
  for the caller that was asked for, or nothing.
-/
structure Call.Follows
    (call : Call)
    (verdict : Verdict) : Prop where
  ending : call.landing.1 = verdict.ending
  queries :
    call.landing.2.context.queries =
      verdict.asked.toList ++ call.machine.context.queries
  accessChecks :
    call.landing.2.context.stats.accessChecks =
      call.machine.context.stats.accessChecks +
        verdict.asked.toList.length
  caller :
    call.landing.2.context.caller = call.machine.context.caller
  runs :
    ∀ run,
      (call.dispatch.action run).run call.machine =
        enter run call.dispatch.receiver call.dispatch.args
          call.landing

/- Calls that agree up to their bodies lead to one body. -/
theorem landing_agree
    (call call' : Runner → Action Value)
    {m n : Machine}
    (hAgree :
      Agree ((call .arrive).run m) ((call' .arrive).run n)) :
    (landing call m).1 = (landing call' n).1 ∧
      (landing call m).2.Alike (landing call' n).2 := by
  unfold landing
  rcases hRun : (call .arrive).run m with ⟨result, m'⟩
  rcases hRun' : (call' .arrive).run n with ⟨result', n'⟩
  rw [hRun, hRun'] at hAgree
  rcases hAgree with ⟨rfl, hAlike⟩
  rcases result with fault | value
  · exact ⟨rfl, hAlike⟩
  · cases value <;> exact ⟨rfl, hAlike⟩

/- Where a call leads, from a run that stops at the body. -/
theorem landing_of_agree
    (call : Runner → Action Value)
    {m m' : Machine}
    {ending : Except Fault Callable}
    (hAgree :
      Agree ((call .arrive).run m) (ending.map .func, m')) :
    (landing call m).1 = ending ∧ (landing call m).2.Alike m' := by
  unfold landing
  rcases hRun : (call .arrive).run m with ⟨result, end'⟩
  rw [hRun] at hAgree
  rcases hAgree with ⟨rfl, hAlike⟩
  cases ending <;> exact ⟨rfl, hAlike⟩

/- Calls of coherent machines follow their verdict. -/
theorem Call.follows_of_coherent
    {call : Call}
    (hMachine : call.machine.Coherent)
    {name : String}
    (hName : call.name? = some name) :
    call.Follows
      (call.machine.verdict call.dispatch.receiver name) := by
  rcases call with ⟨dispatch, m⟩
  have hAgree :
      Agree ((dispatch.action .arrive).run m)
        ((m.verdict dispatch.receiver name).ending.map .func,
          m.asking (m.verdict dispatch.receiver name).asked) := by
    cases dispatch with
    | method receiver member args =>
        cases hName
        exact invokeMethod_verdict hMachine receiver name args
    | site id receiver args =>
        rcases Option.map_eq_some_iff.mp hName with
          ⟨site, hSite, rfl⟩
        have hSame :=
          invokeSite_agree Runner.steady_arrive hMachine hSite
            receiver args
        exact hSame.trans
          (invokeMethod_verdict hMachine receiver site.name args)
  have hLanding := landing_of_agree dispatch.action hAgree
  have hOutline := hLanding.2.outline
  constructor
  · exact hLanding.1
  · exact congrArg Outline.queries hOutline
  · exact congrArg Outline.accessChecks hOutline
  · exact congrArg Outline.caller hOutline
  · intro run
    exact dispatch.forwards run m

end RegisterVM
