import RegisterVM.Dispatch.Body
import RegisterVM.Proofs.Dispatch.Routes

/-
  Machines that cannot be told apart. The outline of a machine
  leaves out what is only there to save work or to be counted:
  kept tables, the entries and counters of sites, the number of
  lookups by name, and reported events. Two actions are similar
  if, from coherent machines of one outline, they end with one
  result and again in coherent machines of one outline.

  Key definitions include:
    * `Outline`
    * `Machine.outline`
    * `Machine.Coherent`
    * `Machine.Alike`
    * `Action.Similar`

  Key theorems include:
    * `Action.Similar.bind`
    * `Action.Similar.tryCatch`
    * `Action.Similar.resolve`
    * `Action.Similar.checkAccess`
    * `Action.Similar.invokeMethod`
-/

namespace RegisterVM

------------------------------------------------------------
-- Running Actions
------------------------------------------------------------

namespace Action

theorem run_heap_bind
    {α : Type}
    (rest : Heap → Action α)
    (m : Machine) :
    (heap >>= rest).run m = (rest m.world.heap).run m :=
  rfl

end Action

namespace Machine

/- A machine with another heap. -/
def withHeap
    (m : Machine)
    (heap : Heap) : Machine :=
  { m with world := { m.world with heap } }

/- A machine with another context. -/
def withContext
    (m : Machine)
    (context : Context) : Machine :=
  { m with context }

end Machine

------------------------------------------------------------
-- Outlines
------------------------------------------------------------

/-
  What calls may depend on: classes and their members, clocks,
  the names of sites and of other objects, the log, the calling
  class, the policy, and the queries put to it.
-/
structure Outline where
  heap : Heap
  sites : Array String
  names : Directory
  log : List String
  caller : Option ClassId
  policy : Policy
  accessChecks : Nat
  queries : List Query

namespace Machine

/- The outline of a machine. -/
def outline
    (m : Machine) : Outline where
  heap := m.world.heap.bare
  sites := m.world.sites.map Site.name
  names := m.world.names
  log := m.world.log
  caller := m.context.caller
  policy := m.context.policy
  accessChecks := m.context.stats.accessChecks
  queries := m.context.queries

/- The heap is coherent, and all that sites remember fits it. -/
structure Coherent
    (m : Machine) : Prop where
  heap : m.world.heap.Coherent
  sites :
    ∀ (id : SiteId) (site : Site),
      m.world.sites[id]? = some site →
        site.Coherent m.world.heap

/- Coherent machines of one outline. -/
structure Alike
    (m₁ m₂ : Machine) : Prop where
  left : m₁.Coherent
  right : m₂.Coherent
  outline : m₁.outline = m₂.outline

theorem Coherent.withHeap
    {m : Machine}
    (hMachine : m.Coherent)
    {heap : Heap}
    (hHeap : heap.Coherent)
    (hEvolves : m.world.heap.Evolves heap) :
    (m.withHeap heap).Coherent where
  heap := hHeap
  sites id site hSite :=
    (hMachine.sites id site hSite).of_evolves hEvolves

namespace Alike

variable {m₁ m₂ m₃ : Machine}

theorem refl
    {m : Machine}
    (hMachine : m.Coherent) :
    m.Alike m :=
  ⟨hMachine, hMachine, rfl⟩

theorem symm
    (hAlike : m₁.Alike m₂) :
    m₂.Alike m₁ :=
  ⟨hAlike.right, hAlike.left, hAlike.outline.symm⟩

theorem trans
    (hFirst : m₁.Alike m₂)
    (hSecond : m₂.Alike m₃) :
    m₁.Alike m₃ :=
  ⟨hFirst.left, hSecond.right,
    hFirst.outline.trans hSecond.outline⟩

theorem bare
    (hAlike : m₁.Alike m₂) :
    m₁.world.heap.bare = m₂.world.heap.bare :=
  congrArg Outline.heap hAlike.outline

/- Every class has the same layout in both machines. -/
theorem sameLayout
    (hAlike : m₁.Alike m₂)
    (id : ClassId) :
    Heap.SameLayout m₂.world.heap m₁.world.heap id :=
  .of_bare_eq hAlike.bare id

theorem caller
    (hAlike : m₁.Alike m₂) :
    m₁.context.caller = m₂.context.caller :=
  congrArg Outline.caller hAlike.outline

theorem policy
    (hAlike : m₁.Alike m₂) :
    m₁.context.policy = m₂.context.policy :=
  congrArg Outline.policy hAlike.outline

/- The sites are the same, by name. -/
theorem sites
    (hAlike : m₁.Alike m₂)
    (id : SiteId) :
    m₁.world.sites[id]?.map Site.name =
      m₂.world.sites[id]?.map Site.name := by
  have hNames := congrArg Outline.sites hAlike.outline
  rw [← Array.getElem?_map, ← Array.getElem?_map]
  exact congrArg (fun names : Array String => names[id]?) hNames

theorem site_none
    (hAlike : m₁.Alike m₂)
    {id : SiteId}
    (hSite : m₁.world.sites[id]? = none) :
    m₂.world.sites[id]? = none := by
  have hNames := hAlike.sites id
  rw [hSite] at hNames
  exact Option.map_eq_none_iff.mp hNames.symm

theorem site_some
    (hAlike : m₁.Alike m₂)
    {id : SiteId}
    {site₁ : Site}
    (hSite : m₁.world.sites[id]? = some site₁) :
    ∃ site₂, m₂.world.sites[id]? = some site₂ ∧
      site₁.name = site₂.name := by
  have hNames := hAlike.sites id
  rw [hSite] at hNames
  rcases Option.map_eq_some_iff.mp hNames.symm with
    ⟨site₂, hSite₂, hName⟩
  exact ⟨site₂, hSite₂, hName.symm⟩

theorem site_name
    (hAlike : m₁.Alike m₂)
    {id : SiteId}
    {site₁ site₂ : Site}
    (hSite₁ : m₁.world.sites[id]? = some site₁)
    (hSite₂ : m₂.world.sites[id]? = some site₂) :
    site₁.name = site₂.name := by
  rcases hAlike.site_some hSite₁ with ⟨other, hOther, hName⟩
  rw [hSite₂] at hOther
  cases hOther
  exact hName

/- Changes of the heap that leave bare heaps equal. -/
theorem withHeap
    (hAlike : m₁.Alike m₂)
    {heap₁ heap₂ : Heap}
    (hBare : heap₁.bare = heap₂.bare)
    (hLeft : (m₁.withHeap heap₁).Coherent)
    (hRight : (m₂.withHeap heap₂).Coherent) :
    (m₁.withHeap heap₁).Alike (m₂.withHeap heap₂) := by
  refine ⟨hLeft, hRight, ?_⟩
  have hOutline := hAlike.outline
  simp only [Machine.outline, Outline.mk.injEq] at hOutline ⊢
  exact ⟨hBare, hOutline.2⟩

/- The same step of the heap on both sides. -/
theorem step
    (hAlike : m₁.Alike m₂)
    (step : HeapStep) :
    (m₁.withHeap (m₁.world.heap.step step)).Alike
      (m₂.withHeap (m₂.world.heap.step step)) := by
  have hLeft := hAlike.left.heap.step step
  have hRight := hAlike.right.heap.step step
  apply hAlike.withHeap
  · rw [Heap.bare_step, hAlike.bare, ← Heap.bare_step]
  · exact hAlike.left.withHeap hLeft.1 hLeft.2
  · exact hAlike.right.withHeap hRight.1 hRight.2

/- Changes of the context that leave outlines equal. -/
theorem withContext
    (hAlike : m₁.Alike m₂)
    {context₁ context₂ : Context}
    (hOutline :
      (m₁.withContext context₁).outline =
        (m₂.withContext context₂).outline) :
    (m₁.withContext context₁).Alike
      (m₂.withContext context₂) :=
  ⟨⟨hAlike.left.heap, hAlike.left.sites⟩,
    ⟨hAlike.right.heap, hAlike.right.sites⟩, hOutline⟩

end Alike

end Machine

------------------------------------------------------------
-- Similar Actions
------------------------------------------------------------

/- Runs that end with one result in machines that are alike. -/
structure Agree
    {α : Type}
    (run₁ run₂ : Except Fault α × Machine) : Prop where
  result : run₁.1 = run₂.1
  machine : run₁.2.Alike run₂.2

theorem Agree.symm
    {α : Type}
    {run₁ run₂ : Except Fault α × Machine}
    (hAgree : Agree run₁ run₂) :
    Agree run₂ run₁ :=
  ⟨hAgree.result.symm, hAgree.machine.symm⟩

theorem Agree.trans
    {α : Type}
    {run₁ run₂ run₃ : Except Fault α × Machine}
    (hFirst : Agree run₁ run₂)
    (hSecond : Agree run₂ run₃) :
    Agree run₁ run₃ :=
  ⟨hFirst.result.trans hSecond.result,
    hFirst.machine.trans hSecond.machine⟩

/- Sequences agree if their parts do. -/
theorem Agree.bind
    {α β : Type}
    {first₁ first₂ : Action α}
    {rest₁ rest₂ : α → Action β}
    {m₁ m₂ : Machine}
    (hFirst : Agree (first₁.run m₁) (first₂.run m₂))
    (hRest :
      ∀ value m₁' m₂', first₁.run m₁ = (.ok value, m₁') →
        Machine.Alike m₁' m₂' →
        Agree ((rest₁ value).run m₁') ((rest₂ value).run m₂')) :
    Agree ((first₁ >>= rest₁).run m₁)
      ((first₂ >>= rest₂).run m₂) := by
  rw [Effect.run_bind, Effect.run_bind]
  rcases hRun₁ : first₁.run m₁ with ⟨result₁, m₁'⟩
  rcases hRun₂ : first₂.run m₂ with ⟨result₂, m₂'⟩
  rw [hRun₁, hRun₂] at hFirst
  cases hFirst.result
  cases result₁ with
  | error fault => exact ⟨rfl, hFirst.machine⟩
  | ok value =>
      exact hRest value m₁' m₂' hRun₁ hFirst.machine

namespace Action

/- Actions that take machines that are alike to runs that agree. -/
def Similar
    {α : Type}
    (action₁ action₂ : Action α) : Prop :=
  ∀ m₁ m₂, Machine.Alike m₁ m₂ →
    Agree (action₁.run m₁) (action₂.run m₂)

/- A way to run callables that depends on outlines only. -/
def Steady
    (run : Runner) : Prop :=
  ∀ callable receiver args,
    Similar (run callable receiver args)
      (run callable receiver args)

namespace Similar

variable {α β : Type}

theorem pure
    (value : α) :
    Similar (Pure.pure value) (Pure.pure value) :=
  fun _ _ hAlike => ⟨rfl, hAlike⟩

theorem throw
    (fault : Fault) :
    Similar
      (MonadExcept.throw fault : Action α)
      (MonadExcept.throw fault) :=
  fun _ _ hAlike => ⟨rfl, hAlike⟩

theorem refuse
    (cause : DispatchError) :
    Similar
      (Action.refuse cause : Action α)
      (Action.refuse cause) :=
  throw (.dispatch cause)

theorem bind
    {first₁ first₂ : Action α}
    {rest₁ rest₂ : α → Action β}
    (hFirst : Similar first₁ first₂)
    (hRest : ∀ value, Similar (rest₁ value) (rest₂ value)) :
    Similar (first₁ >>= rest₁) (first₂ >>= rest₂) := by
  intro m₁ m₂ hAlike
  apply (hFirst m₁ m₂ hAlike).bind
  intro value m₁' m₂' _ hAlike'
  exact hRest value m₁' m₂' hAlike'

theorem tryCatch
    {body₁ body₂ : Action α}
    {handler₁ handler₂ : Fault → Action α}
    (hBody : Similar body₁ body₂)
    (hHandler :
      ∀ fault, Similar (handler₁ fault) (handler₂ fault)) :
    Similar
      (MonadExcept.tryCatch body₁ handler₁)
      (MonadExcept.tryCatch body₂ handler₂) := by
  intro m₁ m₂ hAlike
  have hAgree := hBody m₁ m₂ hAlike
  rw [Effect.run_tryCatch, Effect.run_tryCatch]
  rcases hRun₁ : body₁.run m₁ with ⟨result₁, m₁'⟩
  rcases hRun₂ : body₂.run m₂ with ⟨result₂, m₂'⟩
  rw [hRun₁, hRun₂] at hAgree
  cases hAgree.result
  cases result₁ with
  | error fault => exact hHandler fault m₁' m₂' hAgree.machine
  | ok value => exact ⟨rfl, hAgree.machine⟩

end Similar

------------------------------------------------------------
-- Actions Without A Trace
------------------------------------------------------------

/- An action that yields a value and leaves the outline as it was. -/
def Yields
    {α : Type}
    (action : Action α)
    (m : Machine)
    (value : α) : Prop :=
  ∃ m', action.run m = (.ok value, m') ∧ m'.Alike m

/- The run of one of some actions, on a machine that is alike. -/
def Reaches
    {α : Type}
    (targets : Action α → Prop)
    (m : Machine)
    (run : Except Fault α × Machine) : Prop :=
  ∃ action, targets action ∧
    ∃ m', Machine.Alike m' m ∧ run = action.run m'

/- Read something off the machine. -/
def observe
    {α : Type}
    (look : Machine → α) : Action α :=
  return look (← get)

/- Take a step of the heap. -/
def change
    (step : HeapStep) : Action Unit := do
  setHeap ((← heap).step step)

namespace Yields

variable {α β : Type} {m : Machine}

theorem bind
    {first : Action α}
    {rest : α → Action β}
    {value : α}
    {result : β}
    (hFirst : Yields first m value)
    (hRest :
      ∀ m', Machine.Alike m' m → Yields (rest value) m' result) :
    Yields (first >>= rest) m result := by
  rcases hFirst with ⟨m', hRun, hAlike⟩
  rcases hRest m' hAlike with ⟨m'', hRun', hAlike'⟩
  refine ⟨m'', ?_, hAlike'.trans hAlike⟩
  rw [Effect.run_bind, hRun]
  exact hRun'

/- What comes next may start from any machine that is alike. -/
theorem agree
    {first : Action α}
    {rest : α → Action β}
    {value : α}
    {other : Except Fault β × Machine}
    (hFirst : Yields first m value)
    (hRest :
      ∀ m', Machine.Alike m' m →
        Agree ((rest value).run m') other) :
    Agree ((first >>= rest).run m) other := by
  rcases hFirst with ⟨m', hRun, hAlike⟩
  rw [Effect.run_bind, hRun]
  exact hRest m' hAlike

theorem reaches
    {first : Action α}
    {rest : α → Action β}
    {value : α}
    {targets : Action β → Prop}
    {m₀ : Machine}
    (hFirst : Yields first m value)
    (hAlike : m.Alike m₀)
    (hRest :
      ∀ m', Machine.Alike m' m₀ →
        Reaches targets m₀ ((rest value).run m')) :
    Reaches targets m₀ ((first >>= rest).run m) := by
  rcases hFirst with ⟨m', hRun, hAlike'⟩
  rw [Effect.run_bind, hRun]
  exact hRest m' (hAlike'.trans hAlike)

theorem pure
    (hMachine : m.Coherent)
    (value : α) :
    Yields (Pure.pure value) m value :=
  ⟨m, rfl, .refl hMachine⟩

theorem observe
    (hMachine : m.Coherent)
    (look : Machine → α) :
    Yields (Action.observe look) m (look m) :=
  ⟨m, rfl, .refl hMachine⟩

theorem heap
    (hMachine : m.Coherent) :
    Yields Action.heap m m.world.heap :=
  observe hMachine fun m => m.world.heap

/- Counting a lookup does not show. -/
theorem countResolution
    (hMachine : m.Coherent) :
    Yields (modifyContext Context.countResolution) m () :=
  ⟨m.withContext m.context.countResolution, rfl,
    ⟨hMachine.heap, hMachine.sites⟩, hMachine, rfl⟩

/- A heap that differs in kept tables only does not show. -/
theorem setHeap
    (hMachine : m.Coherent)
    {heap : Heap}
    (hHeap : heap.Coherent)
    (hBare : heap.bare = m.world.heap.bare) :
    Yields (Action.setHeap heap) m () := by
  have hEvolves := Heap.Evolves.of_bare_eq hBare
  refine ⟨m.withHeap heap, rfl, ?_, hMachine, ?_⟩
  · exact hMachine.withHeap hHeap hEvolves
  · simp only [Machine.outline, Machine.withHeap, hBare]

theorem slotTable
    (hMachine : m.Coherent)
    (cls : ClassId) :
    Yields (Action.slotTable cls) m
      (m.world.heap.builtTable cls) := by
  have hTable := hMachine.heap.slotTable cls
  unfold Action.slotTable
  apply (heap hMachine).bind
  intro m' hAlike
  rw [← hTable.1]
  have hBare := m.world.heap.bare_slotTable cls
  apply (setHeap hAlike.left hTable.2
    (hBare.trans hAlike.bare.symm)).bind
  intro m'' hAlike'
  exact pure hAlike'.left _

theorem resolve
    (hMachine : m.Coherent)
    (cls : ClassId)
    (name : String) :
    Yields (Action.resolve cls name) m
      (m.world.heap.found? cls name) := by
  unfold Action.resolve
  apply (countResolution hMachine).bind
  intro m' hAlike
  have hResolve := hAlike.left.heap.resolve cls name
  have hSame := hAlike.sameLayout cls
  rw [← hSame.found?, ← hResolve.1]
  apply (heap hAlike.left).bind
  intro m'' hAlike'
  have hBare := m'.world.heap.bare_resolve cls name
  apply (setHeap hAlike'.left hResolve.2
    (hBare.trans hAlike'.bare.symm)).bind
  intro m''' hAlike''
  exact pure hAlike''.left _

theorem resolveStatic
    (hMachine : m.Coherent)
    (cls : ClassId)
    (name : String) :
    Yields (Action.resolveStatic cls name) m
      (m.world.heap.resolveStatic cls name) := by
  unfold Action.resolveStatic
  apply (countResolution hMachine).bind
  intro m' hAlike
  rw [← (hAlike.sameLayout cls).resolveStatic]
  exact observe hAlike.left
    fun m => m.world.heap.resolveStatic cls name

/- Reporting an event does not show. -/
theorem report
    (hMachine : m.Coherent)
    (event : Trace.Event) :
    Yields (Action.report event) m () :=
  ⟨{ m with world := m.world.report event }, rfl,
    ⟨hMachine.heap, hMachine.sites⟩, hMachine, rfl⟩

end Yields

------------------------------------------------------------
-- Similarity Of Dispatch
------------------------------------------------------------

namespace Similar

variable {α : Type}

/- An action without trace that yields what outlines determine. -/
theorem of_yields
    {action : Action α}
    (value : Machine → α)
    (hYields : ∀ m, m.Coherent → Yields action m (value m))
    (hValue :
      ∀ m₁ m₂, Machine.Alike m₁ m₂ → value m₁ = value m₂) :
    Similar action action := by
  intro m₁ m₂ hAlike
  rcases hYields m₁ hAlike.left with ⟨m₁', hRun₁, hAlike₁⟩
  rcases hYields m₂ hAlike.right with ⟨m₂', hRun₂, hAlike₂⟩
  rw [hRun₁, hRun₂, hValue m₁ m₂ hAlike]
  exact ⟨rfl, (hAlike₁.trans hAlike).trans hAlike₂.symm⟩

theorem observe
    {look : Machine → α}
    (hLook :
      ∀ m₁ m₂ : Machine, m₁.outline = m₂.outline →
        look m₁ = look m₂) :
    Similar (Action.observe look) (Action.observe look) :=
  of_yields look (fun _ hMachine => .observe hMachine look)
    fun m₁ m₂ hAlike => hLook m₁ m₂ hAlike.outline

theorem slotTable
    (cls : ClassId) :
    Similar (Action.slotTable cls) (Action.slotTable cls) :=
  of_yields (fun m => m.world.heap.builtTable cls)
    (fun _ hMachine => .slotTable hMachine cls)
    fun _ _ hAlike => (hAlike.sameLayout cls).builtTable

theorem resolve
    (cls : ClassId)
    (name : String) :
    Similar (Action.resolve cls name)
      (Action.resolve cls name) :=
  of_yields (fun m => m.world.heap.found? cls name)
    (fun _ hMachine => .resolve hMachine cls name)
    fun _ _ hAlike => (hAlike.sameLayout cls).found? name

theorem resolveStatic
    (cls : ClassId)
    (name : String) :
    Similar (Action.resolveStatic cls name)
      (Action.resolveStatic cls name) :=
  of_yields (fun m => m.world.heap.resolveStatic cls name)
    (fun _ hMachine => .resolveStatic hMachine cls name)
    fun _ _ hAlike => (hAlike.sameLayout cls).resolveStatic name

/- An error that names a class. -/
theorem refuseFor
    (cls : ClassId)
    (cause : String → DispatchError) :
    Similar
      (do Action.refuse (cause ((← heap).className cls)) :
        Action α)
      (do Action.refuse (cause ((← heap).className cls))) := by
  have hName :
      Similar
        (Action.observe fun m => m.world.heap.className cls)
        (Action.observe fun m => m.world.heap.className cls) :=
    of_yields (fun m => m.world.heap.className cls)
      (fun _ hMachine => .observe hMachine _)
      fun _ _ hAlike => (hAlike.sameLayout cls).className
  exact hName.bind fun name => refuse (cause name)

/- The question is put to one policy for one lineage. -/
theorem canAccess
    (visibility : Visibility)
    (declaring : ClassId)
    (member : String) :
    Similar
      (Action.canAccess visibility declaring member)
      (Action.canAccess visibility declaring member) := by
  intro m₁ m₂ hAlike
  have hLineage :
      m₁.context.caller.map m₁.world.heap.lineage =
        m₂.context.caller.map m₂.world.heap.lineage := by
    rw [hAlike.caller]
    cases m₂.context.caller with
    | none => rfl
    | some cls =>
        exact congrArg some (hAlike.sameLayout cls).lineage
  refine ⟨?_, hAlike.withContext ?_⟩
  · show
      Except.ok
          (m₁.context.policy.permits visibility declaring
            (m₁.context.caller.map m₁.world.heap.lineage)
            member) =
        _
    rw [hLineage, hAlike.policy]
    rfl
  · have hOutline := hAlike.outline
    simp only [Machine.outline, Outline.mk.injEq] at hOutline
    simp only [Machine.outline, Machine.withContext, hOutline]

theorem checkAccess
    (visibility : Visibility)
    (declaring : ClassId)
    (member : String)
    (owner : ClassId) :
    Similar
      (Action.checkAccess visibility declaring member owner)
      (Action.checkAccess visibility declaring member owner) := by
  unfold Action.checkAccess
  apply (canAccess visibility declaring member).bind
  intro answer
  cases answer with
  | true => exact pure ()
  | false =>
      exact refuseFor owner fun owner =>
        .illegalAccess visibility owner member

/- The same step of the heap. -/
theorem change
    (step : HeapStep) :
    Similar (Action.change step) (Action.change step) :=
  fun _ _ hAlike => ⟨rfl, hAlike.step step⟩

theorem setCaller
    (caller : Option ClassId) :
    Similar
      (modifyContext fun ctx => { ctx with caller })
      (modifyContext fun ctx => { ctx with caller }) := by
  intro m₁ m₂ hAlike
  refine ⟨rfl, hAlike.withContext ?_⟩
  exact congrArg (fun outline : Outline => { outline with caller })
    hAlike.outline

theorem log
    (message : String) :
    Similar
      (modifyWorld fun world =>
        { world with log := message :: world.log })
      (modifyWorld fun world =>
        { world with log := message :: world.log }) := by
  intro m₁ m₂ hAlike
  refine ⟨rfl, ⟨hAlike.left.heap, hAlike.left.sites⟩,
    ⟨hAlike.right.heap, hAlike.right.sites⟩, ?_⟩
  exact congrArg
    (fun outline : Outline =>
      { outline with log := message :: outline.log })
    hAlike.outline

end Similar

/- Questions of access are about the context only. -/
theorem world_checkAccess
    (visibility : Visibility)
    (declaring : ClassId)
    (member : String)
    (owner : ClassId)
    (m : Machine) :
    ((Action.checkAccess visibility declaring member owner).run
      m).2.world = m.world := by
  unfold Action.checkAccess
  rw [Effect.run_bind]
  rcases hRun :
      (Action.canAccess visibility declaring member).run m with
    ⟨answer, m'⟩
  have hWorld : m'.world = m.world := by
    have hSame :
        ((Action.canAccess visibility declaring member).run
          m).2.world = m.world :=
      rfl
    rw [hRun] at hSame
    exact hSame
  rcases answer with _ | _ | _ <;> exact hWorld

namespace Similar

variable {run : Runner}

theorem invokeInstance
    (hRun : Steady run)
    (i : Instance)
    (name : String)
    (args : List Value) :
    Similar
      (RegisterVM.invokeInstance run i name args)
      (RegisterVM.invokeInstance run i name args) := by
  unfold RegisterVM.invokeInstance
  apply (resolve i.cls name).bind
  rintro (_ | ⟨record, slot⟩)
  · exact refuseFor i.cls fun owner => .notFound owner name
  · cases hBody : record.body with
    | none =>
        simp only [hBody]
        exact refuseFor i.cls fun owner =>
          .abstractMember owner name
    | some body =>
        simp only [hBody]
        apply (checkAccess _ _ _ _).bind
        intro _
        cases slot with
        | none => exact hRun body (.inst i) args
        | some slot =>
            apply (slotTable i.cls).bind
            intro table
            exact hRun _ (.inst i) args

theorem invokeMethod
    (hRun : Steady run)
    (receiver : Value)
    (name : String)
    (args : List Value) :
    Similar
      (RegisterVM.invokeMethod run receiver name args)
      (RegisterVM.invokeMethod run receiver name args) := by
  cases receiver with
  | inst i => exact invokeInstance hRun i name args
  | cls c =>
      apply (resolveStatic c name).bind
      rintro (_ | body)
      · exact refuseFor c fun owner =>
          .notFound (classScopeOwner owner) name
      · exact hRun body (.cls c) args
  | nil | bool | int | real | str | func => exact refuse _

end Similar

end Action

end RegisterVM
