import RegisterVM.Proofs.Dispatch.Visits

/-
  Threads that share a world. Each thread runs a routine in its own
  context. A call through a site takes several steps, between which
  other threads may act: one section that looks the key up and
  counts; after a miss, the resolution of a route and one section
  that remembers it; and then the route is taken and the body
  starts. Each step is a section under the lock of the site, or
  reads the classes that it needs at once. The steps of a thread
  that runs alone come to what the call does in one go, and no
  thread ever waits for another.

  Key definitions include:
    * `Phase`
    * `Phase.advance`
    * `Thread`
    * `Pool`
    * `Pool.step`
    * `Pool.run`

  Key theorems include:
    * `Phase.run_rest`
    * `Pool.continues_step`
    * `Pool.alone`
    * `Pool.reaches_finished`
-/

namespace RegisterVM

------------------------------------------------------------
-- Steps Of A Call
------------------------------------------------------------

/- How far a call has come. -/
inductive Phase where
  | ready
  /- The key was looked up, and not found. -/
  | missed (site : Site) (key : Key)
  /- A route was resolved, and is not yet remembered. -/
  | resolved (site : Site) (key : Key) (route : Route)
  /- The route to take is known. -/
  | routed (site : Site) (route : Route)

/- What a step of a call comes to. -/
inductive Headway where
  | waits (phase : Phase) (m : Machine)
  | lands (ending : Except Fault Callable × Machine)

/- Go on from a value, or land with a fault. -/
def Headway.from
    {α : Type}
    (next : α → Machine → Headway) :
    Except Fault α × Machine → Headway
  | (.ok value, m) => next value m
  | (.error fault, m) => .lands (.error fault, m)

/- A machine after a change of one site. -/
def Machine.modifySite
    (m : Machine)
    (id : SiteId)
    (change : SiteState → SiteState) : Machine :=
  { m with world := m.world.modifySite id change }

/- How calls advance, step by step. -/
abbrev Advance :=
  Dispatch → Machine → Phase → Headway

namespace Phase

/-
  The next step of a call. A call by name takes one step. A call
  that a site leaves alone goes by name, as the generic route does.
-/
def advance : Advance
  | .method receiver name args, m, _ =>
    .lands
      (landing (fun run => invokeMethod run receiver name args) m)
  | .site id receiver _, m, .ready =>
    match m.world.sites[id]? with
    | none => .lands (.error (.unbound .site (toString id)), m)
    | some site =>
      match site.key? m.world.heap receiver with
      | none =>
        .waits (.routed site .generic)
          (m.modifySite id SiteState.coldCall)
      | some key =>
        .from
          (fun
            | some route => .waits (.routed site route)
            | none => .waits (.missed site key))
          ((accessSite id site key).run m)
  | .site _ receiver _, m, .missed site key =>
    .from (fun route => .waits (.resolved site key route))
      ((resolveMiss site key receiver).run m)
  | .site id _ _, m, .resolved site key route =>
    .waits (.routed site route)
      (m.modifySite id fun state => state.insert ⟨key, route⟩)
  | .site _ receiver args, m, .routed site route =>
    .lands
      (landing (fun run => route.take run receiver site.name args) m)

/- A call in one step, by the name of the site. -/
def advanceByName : Advance
  | .method receiver name args, m, _ =>
    .lands
      (landing (fun run => invokeMethod run receiver name args) m)
  | .site id receiver args, m, _ =>
    match m.world.sites[id]? with
    | none => .lands (.error (.unbound .site (toString id)), m)
    | some site =>
      .lands
        (landing
          (fun run => invokeMethod run receiver site.name args) m)

/- The call that starts, if this is its first step. -/
def started
    (call : Call) : Phase → Option Call
  | ready => some call
  | _ => none

/- What is left of a call. -/
def rest
    (run : Runner) : Dispatch → Phase → Action Value
  | .method receiver name args, _ =>
    invokeMethod run receiver name args
  | .site id receiver args, .ready => invokeSite run id receiver args
  | .site id receiver args, .missed site key => do
    let route ← resolveMiss site key receiver
    Action.modifyWorld fun world =>
      world.modifySite id fun state => state.insert ⟨key, route⟩
    route.take run receiver site.name args
  | .site id receiver args, .resolved site key route => do
    Action.modifyWorld fun world =>
      world.modifySite id fun state => state.insert ⟨key, route⟩
    route.take run receiver site.name args
  | .site _ receiver args, .routed site route =>
    route.take run receiver site.name args

/- What is left after a step is what was left before it. -/
theorem run_rest
    (run : Runner)
    (dispatch : Dispatch)
    (phase : Phase)
    (m : Machine) :
    (phase.rest run dispatch).run m =
      match phase.advance dispatch m with
      | .waits phase' m' => (phase'.rest run dispatch).run m'
      | .lands ending =>
        enter run dispatch.receiver dispatch.args ending := by
  cases dispatch with
  | method receiver name args =>
      exact Forwards.invokeMethod name run m
  | site id receiver args =>
      cases phase with
      | ready =>
          simp only [rest, advance, invokeSite]
          rw [Effect.run_get_bind]
          cases m.world.sites[id]? with
          | none => rfl
          | some site =>
              dsimp only
              rw [Action.run_heap_bind]
              unfold Site.key?
              cases
                if site.tuning.enabled then
                  m.world.heap.key? receiver
                else none with
              | none => rfl
              | some key =>
                  dsimp only
                  rw [Effect.run_bind]
                  rcases (accessSite id site key).run m with
                    ⟨_ | _ | route, m'⟩ <;> rfl
      | missed site key =>
          simp only [rest, advance]
          rw [Effect.run_bind]
          rcases (resolveMiss site key receiver).run m with
            ⟨_ | route, m'⟩ <;> rfl
      | resolved site key route => rfl
      | routed site route =>
          exact Forwards.take route site.name run m

end Phase

------------------------------------------------------------
-- Threads
------------------------------------------------------------

/- A call whose body runs, and how its caller goes on. -/
structure Activation where
  dispatch : Dispatch
  caller : Option ClassId
  next : Except Fault Value → Routine

/- A thread: its context, the calls it is in, and what is next. -/
structure Thread where
  context : Context
  frames : List Activation := []
  phase : Phase := .ready
  now : Routine

/- A call that a thread has started. -/
structure Start where
  thread : Nat
  call : Call

/- A call that has returned to a thread. -/
structure Answer where
  thread : Nat
  dispatch : Dispatch
  caller : Option ClassId
  result : Except Fault Value

/- A heap and a step that it took. -/
structure Change where
  heap : Heap
  step : HeapStep

/- Threads that share a world, and what has happened, latest first. -/
structure Pool where
  world : World
  threads : List Thread
  starts : List Start := []
  changes : List Change := []
  answers : List Answer := []

/- The step of the heap that a deed takes. -/
def Deed.step?
    {α : Type} : Deed α → Option HeapStep
  | .change step => some step
  | _ => none

namespace Pool

/- Set what a thread is and the world it left. -/
def goOn
    (s : Pool)
    (j : Nat)
    (t : Thread)
    (m : Machine) : Pool :=
  { s with
    world := m.world
    threads := s.threads.set j { t with context := m.context } }

/- A call returns to a thread. -/
def returns
    (s : Pool)
    (j : Nat)
    (dispatch : Dispatch)
    (caller : Option ClassId)
    (result : Except Fault Value) : Pool :=
  { s with
    answers := ⟨j, dispatch, caller, result⟩ :: s.answers }

/- A call is started, if this is its first step. -/
def starting
    (s : Pool)
    (j : Nat)
    (call : Call)
    (phase : Phase) : Pool :=
  { s with
    starts :=
      (phase.started call).toList.map (Start.mk j) ++ s.starts }

/- The heap changes, if it does. -/
def changing
    (s : Pool) : Option HeapStep → Pool
  | some step =>
    { s with changes := ⟨s.world.heap, step⟩ :: s.changes }
  | none => s

/- A step of a thread. -/
def stepThread
    (advance : Advance)
    (s : Pool)
    (j : Nat)
    (t : Thread) : Pool :=
  let m : Machine := ⟨s.world, t.context⟩
  match t.now with
  | .done result =>
    match t.frames with
    | [] => s
    | frame :: frames =>
      (s.goOn j
        { t with
          frames
          phase := .ready
          now := frame.next result }
        m).returns j frame.dispatch frame.caller result
  | .deed d next =>
    match d.action.run m with
    | (.ok value, m') =>
      (s.changing d.step?).goOn j
        { t with phase := .ready, now := next value } m'
    | (.error _, _) => s
  | .call bodies dispatch next =>
    let s := s.starting j ⟨dispatch, m⟩ t.phase
    match advance dispatch m t.phase with
    | .waits phase m' => s.goOn j { t with phase } m'
    | .lands (.ok body, m') =>
      let frame : Activation := ⟨dispatch, t.context.caller, next⟩
      s.goOn j
        { t with
          frames := frame :: t.frames
          phase := .ready
          now := bodies body dispatch.receiver dispatch.args }
        m'
    | .lands (.error fault, m') =>
      (s.goOn j
        { t with phase := .ready, now := next (.error fault) }
        m').returns j dispatch t.context.caller (.error fault)

/- A step of one of the threads. -/
def step
    (advance : Advance)
    (s : Pool)
    (j : Nat) : Pool :=
  match s.threads[j]? with
  | none => s
  | some t => s.stepThread advance j t

/- The system after the steps of a schedule. -/
def run
    (advance : Advance)
    (s : Pool)
    (schedule : List Nat) : Pool :=
  schedule.foldl (step advance) s

theorem run_concat
    (advance : Advance)
    (s : Pool)
    (schedule : List Nat)
    (j : Nat) :
    s.run advance (schedule ++ [j]) =
      (s.run advance schedule).step advance j :=
  List.foldl_append

------------------------------------------------------------
-- What Has Happened
------------------------------------------------------------

theorem threads_changing
    (s : Pool)
    (step : Option HeapStep) :
    (s.changing step).threads = s.threads := by
  cases step <;> rfl

theorem starts_changing
    (s : Pool)
    (step : Option HeapStep) :
    (s.changing step).starts = s.starts := by
  cases step <;> rfl

theorem threads_goOn_of
    {s₀ s : Pool}
    (hThreads : s.threads = s₀.threads)
    (j : Nat)
    (t : Thread)
    (m : Machine) :
    (s.goOn j t m).threads =
      s₀.threads.set j { t with context := m.context } := by
  rw [goOn, hThreads]

/- The first step of a call is its start. -/
theorem mem_starts_stepThread
    (advance : Advance)
    (s : Pool)
    (j : Nat)
    {t : Thread}
    {bodies : Bodies}
    {dispatch : Dispatch}
    {next : Except Fault Value → Routine}
    (hNow : t.now = .call bodies dispatch next)
    (hReady : t.phase = .ready) :
    ⟨j, dispatch, s.world, t.context⟩ ∈
      (s.stepThread advance j t).starts := by
  simp only [stepThread, hNow, hReady]
  split <;> exact List.mem_cons_self

/- And a change of the heap is recorded. -/
theorem mem_changes_stepThread
    (advance : Advance)
    (s : Pool)
    (j : Nat)
    {t : Thread}
    {α : Type}
    {d : Deed α}
    {next : α → Routine}
    (hNow : t.now = .deed d next)
    {step : HeapStep}
    (hStep : d.step? = some step) :
    ⟨s.world.heap, step⟩ ∈
      (s.stepThread advance j t).changes := by
  rcases d.exists_value ⟨s.world, t.context⟩ with
    ⟨value, m, hRun⟩
  simp only [stepThread, hNow, hRun, hStep]
  exact List.mem_cons_self

/- What has happened stays so, and threads neither come nor go. -/
structure Continues
    (s s' : Pool) : Prop where
  starts : s.starts ⊆ s'.starts
  changes : s.changes ⊆ s'.changes
  threads : s'.threads.length = s.threads.length

theorem continues_step
    (advance : Advance)
    (s : Pool)
    (j : Nat) :
    s.Continues (s.step advance j) := by
  have hSame : s.Continues s :=
    ⟨List.Subset.refl _, List.Subset.refl _, rfl⟩
  unfold step
  split
  next => exact hSame
  next t _ =>
    simp only [stepThread]
    split
    next =>
      split
      next => exact hSame
      next => exact { hSame with threads := List.length_set }
    next d next _ =>
      split
      next =>
        unfold changing
        cases d.step? with
        | none => exact { hSame with threads := List.length_set }
        | some step =>
            exact
              { hSame with
                changes := List.subset_cons_self _ _
                threads := List.length_set }
      next => exact hSame
    next bodies dispatch next _ =>
      split <;>
        exact
          { hSame with
            starts := List.subset_append_right _ _
            threads := List.length_set }

theorem length_threads_run
    (advance : Advance)
    (s : Pool)
    (schedule : List Nat) :
    (s.run advance schedule).threads.length = s.threads.length := by
  induction schedule using List.reverseRecOn with
  | nil => rfl
  | append_singleton schedule j ih =>
      rw [run_concat, (continues_step advance _ j).threads, ih]

end Pool

------------------------------------------------------------
-- A Thread Alone
------------------------------------------------------------

namespace Phase

/- How many steps of a call are left at most, before it lands. -/
def rank : Phase → Nat
  | ready => 3
  | missed .. => 2
  | resolved .. => 1
  | routed .. => 0

theorem rank_advance
    {dispatch : Dispatch}
    {m m' : Machine}
    {phase phase' : Phase}
    (hWaits : phase.advance dispatch m = .waits phase' m') :
    phase'.rank < phase.rank := by
  cases dispatch with
  | method receiver name args => cases hWaits
  | site id receiver args =>
      cases phase with
      | ready =>
          simp only [advance] at hWaits
          split at hWaits
          next => cases hWaits
          next site _ =>
            split at hWaits
            next =>
              cases hWaits
              exact Nat.zero_lt_succ 2
            next key _ =>
              rcases hRun : (accessSite id site key).run m with
                ⟨_ | _ | route, m''⟩ <;>
                rw [hRun] at hWaits <;> cases hWaits
              · exact Nat.lt_succ_self 2
              · exact Nat.zero_lt_succ 2
      | missed site key =>
          simp only [advance] at hWaits
          rcases hRun : (resolveMiss site key receiver).run m with
            ⟨_ | route, m''⟩ <;>
            rw [hRun] at hWaits <;> cases hWaits
          exact Nat.lt_succ_self 1
      | resolved site key route =>
          cases hWaits
          exact Nat.zero_lt_succ 0
      | routed site route => cases hWaits

end Phase

namespace Pool

/- Some more steps of one thread lead to a pool of some kind. -/
def Reaches
    (j : Nat)
    (P : Pool → Prop)
    (s : Pool) : Prop :=
  ∃ n, P (s.run Phase.advance (List.replicate n j))

variable {j : Nat} {P : Pool → Prop} {s : Pool}

theorem Reaches.of_step
    {t : Thread}
    (hThread : s.threads[j]? = some t)
    (hReaches : (s.stepThread Phase.advance j t).Reaches j P) :
    s.Reaches j P := by
  rcases hReaches with ⟨n, hEnd⟩
  refine ⟨n + 1, ?_⟩
  rw [List.replicate_succ, run, List.foldl_cons, step, hThread]
  exact hEnd

theorem getElem?_goOn
    {t : Thread}
    (hThread : s.threads[j]? = some t)
    (t' : Thread)
    (m : Machine) :
    (s.goOn j t' m).threads[j]? =
      some { t' with context := m.context } := by
  rcases List.getElem?_eq_some_iff.mp hThread with ⟨hKnown, _⟩
  exact List.getElem?_set_self hKnown

/- A thread reaches what it reaches once its routine is done. -/
def Completes
    (routine : Routine) : Prop :=
  ∀ (s : Pool) (j : Nat) (P : Pool → Prop) (context : Context)
    (frames : List Activation),
    s.threads[j]? = some ⟨context, frames, .ready, routine⟩ →
    ∀ (result : Except Fault Value) (m : Machine),
      routine.action.run ⟨s.world, context⟩ = (result, m) →
      (∀ s' : Pool,
        s'.world = m.world →
        s'.threads[j]? =
          some ⟨m.context, frames, .ready, .done result⟩ →
        s'.Reaches j P) →
      s.Reaches j P

/- A call is done once its body is, and then its caller goes on. -/
theorem reaches_of_call
    {bodies : Bodies}
    (hBodies :
      ∀ callable receiver args,
        Completes (bodies callable receiver args))
    {next : Except Fault Value → Routine}
    (hNext : ∀ result, Completes (next result))
    {dispatch : Dispatch}
    {frames : List Activation}
    (phase : Phase)
    {context : Context}
    (hThread :
      s.threads[j]? =
        some ⟨context, frames, phase, .call bodies dispatch next⟩)
    {result result' : Except Fault Value}
    {m m' : Machine}
    (hCall :
      (phase.rest bodies.runner dispatch).run ⟨s.world, context⟩ =
        (result, m))
    (hRest : (next result).action.run m = (result', m'))
    (hEnd :
      ∀ s' : Pool,
        s'.world = m'.world →
        s'.threads[j]? =
          some ⟨m'.context, frames, .ready, .done result'⟩ →
        s'.Reaches j P) :
    s.Reaches j P := by
  -- Every step of the call leaves fewer of its steps.
  induction hRank : phase.rank using Nat.strongRecOn
    generalizing phase s context with
  | ind rank ih =>
      apply Reaches.of_step hThread
      have hStarted :
          ∀ call,
            (s.starting j call phase).threads[j]? =
              some ⟨context, frames, phase,
                .call bodies dispatch next⟩ :=
        fun _ => hThread
      rw [Phase.run_rest] at hCall
      simp only [stepThread]
      rcases hAdvance :
          phase.advance dispatch ⟨s.world, context⟩ with
        ⟨phase', m₁⟩ | ⟨fault | body, m₁⟩
      · rw [hAdvance] at hCall
        have hLess := Phase.rank_advance hAdvance
        exact ih phase'.rank (hRank ▸ hLess) phase'
          (getElem?_goOn (hStarted _) _ m₁) hCall rfl
      · rw [hAdvance] at hCall
        cases hCall
        exact hNext _ _ j P m.context frames
          (getElem?_goOn (hStarted _) _ m) result' m' hRest hEnd
      · rw [hAdvance] at hCall
        refine hBodies body dispatch.receiver dispatch.args _ j P
          m₁.context _ (getElem?_goOn (hStarted _) _ m₁) result m
          hCall ?_
        intro s' hWorld hThread'
        apply Reaches.of_step hThread'
        have hBack : (⟨s'.world, m.context⟩ : Machine) = m := by
          rw [hWorld]
        simp only [stepThread]
        rw [hBack]
        exact hNext result _ j P m.context frames
          (getElem?_goOn hThread' _ m) result' m' hRest hEnd

/- Routines complete. -/
theorem completes
    (routine : Routine) :
    Completes routine := by
  induction routine with
  | done result =>
      intro s j P context frames hThread result' m hRun hEnd
      rw [Routine.run_done] at hRun
      cases hRun
      exact hEnd s rfl hThread
  | deed d next ih =>
      intro s j P context frames hThread result m hRun hEnd
      apply Reaches.of_step hThread
      rcases d.exists_value ⟨s.world, context⟩ with
        ⟨value, m', hDeed⟩
      rw [Routine.run_deed hDeed] at hRun
      simp only [stepThread, hDeed]
      have hThread' :
          (s.changing d.step?).threads[j]? =
            some ⟨context, frames, .ready, .deed d next⟩ := by
        rw [threads_changing]
        exact hThread
      exact ih value _ j P m'.context frames
        (getElem?_goOn hThread' _ m') result m hRun hEnd
  | call bodies dispatch next ihBodies ihNext =>
      intro s j P context frames hThread result m hRun hEnd
      rw [Routine.run_call] at hRun
      have hReady :
          (Phase.ready.rest (Bodies.runner bodies) dispatch) =
            dispatch.action (Bodies.runner bodies) := by
        cases dispatch <;> rfl
      rcases hCall :
          (dispatch.action (Bodies.runner bodies)).run
            ⟨s.world, context⟩ with ⟨result', m'⟩
      rw [hCall] at hRun
      rw [← hReady] at hCall
      exact reaches_of_call ihBodies ihNext .ready hThread hCall hRun
        hEnd

/-
  A thread that runs on while others rest ends as its routine does,
  with its result and in its machine.
-/
theorem alone
    {context : Context}
    {routine : Routine}
    (hThread :
      s.threads[j]? = some { context, now := routine }) :
    s.Reaches j fun s' =>
      s'.world =
          (routine.action.run ⟨s.world, context⟩).2.world ∧
        s'.threads[j]? =
          some
            { context :=
                (routine.action.run ⟨s.world, context⟩).2.context
              now :=
                .done
                  (routine.action.run ⟨s.world, context⟩).1 } := by
  apply completes routine s j _ context [] hThread _ _ rfl
  intro s' hWorld hThread'
  exact ⟨0, hWorld, hThread'⟩

/- A thread has nothing left to do. -/
def Finished
    (j : Nat)
    (s : Pool) : Prop :=
  ∃ t result,
    s.threads[j]? = some t ∧ t.frames = [] ∧ t.now = .done result

/- Bodies that are done return, one after the other. -/
theorem reaches_finished_of_done
    {context : Context}
    {frames : List Activation}
    {phase : Phase}
    {result : Except Fault Value}
    (hThread :
      s.threads[j]? = some ⟨context, frames, phase, .done result⟩) :
    s.Reaches j (Finished j) := by
  induction frames generalizing s context phase result with
  | nil => exact ⟨0, _, result, hThread, rfl, rfl⟩
  | cons frame frames ih =>
      apply Reaches.of_step hThread
      apply completes (frame.next result) _ j _ context frames
        (getElem?_goOn hThread _ ⟨s.world, context⟩) _ _ rfl
      exact fun s' _ hThread' => ih hThread'

/-
  No thread waits for another: from wherever it is, all its calls
  return and it comes to its end.
-/
theorem reaches_finished
    {t : Thread}
    (hThread : s.threads[j]? = some t) :
    s.Reaches j (Finished j) := by
  rcases t with ⟨context, frames, phase, now⟩
  cases now with
  | done result => exact reaches_finished_of_done hThread
  | deed d next =>
      apply Reaches.of_step hThread
      rcases d.exists_value ⟨s.world, context⟩ with
        ⟨value, m, hDeed⟩
      simp only [stepThread, hDeed]
      rw [← s.threads_changing d.step?] at hThread
      apply completes (next value) _ j _ m.context frames
        (getElem?_goOn hThread _ m) _ _ rfl
      exact fun s' _ hThread' => reaches_finished_of_done hThread'
  | call bodies dispatch next =>
      apply reaches_of_call
        (fun callable receiver args =>
          completes (bodies callable receiver args))
        (fun result => completes (next result)) phase hThread rfl rfl
      exact fun s' _ hThread' => reaches_finished_of_done hThread'

end Pool

end RegisterVM
