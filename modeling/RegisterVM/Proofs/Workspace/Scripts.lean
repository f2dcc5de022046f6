import RegisterVM.Proofs.Dispatch.Native
import RegisterVM.Workspace.Basic

/-
  Scripts over a workspace. A script asks for classes, objects,
  sites and contexts, changes members and callers, and makes
  calls by name and through sites; each request may depend on all
  that was seen before. How the sites are tuned is not up to the
  script.

  Key definitions include:
    * `Request`
    * `Reply`
    * `Request.perform`
    * `View`
    * `Script.run`

  Key theorems include:
    * `Request.coherent_perform`
    * `Request.same_perform`
    * `Script.coherent_run`
-/

namespace RegisterVM

------------------------------------------------------------
-- Requests
------------------------------------------------------------

/- What a script may ask for. -/
inductive Request where
  | newClass (handle name : String) (parent : Option ClassId)
  | newInstance (handle : String) (cls : ClassId)
  | newCallable (handle name : String) (body : Body)
  | newSite (handle name : String)
  | newContext (handle : String) (caller : Option ClassId)
      (policy : Policy) (logged : Bool)
  | setCaller (context : String) (caller : Option ClassId)
  /- Declare a method, abstract without a body. -/
  | define (cls : ClassId) (name : String)
      (visibility : Visibility) (body : Option Callable)
  | defineStatic (cls : ClassId) (name : String)
      (body : Callable)
  | remove (cls : ClassId) (name : String)
  /- Ask for a slot table, or for a method by name. -/
  | table (cls : ClassId)
  | resolve (cls : ClassId) (name : String)
  /- Call a member by name, or through a site. -/
  | method (context : String) (receiver : Value) (name : String)
      (args : List Value)
  | site (context : String) (id : SiteId) (receiver : Value)
      (args : List Value)

/- What a request yields. -/
inductive Reply where
  | done
  | cls (id : ClassId)
  | inst (i : Instance)
  | func (f : Callable)
  | site (id : SiteId)
  | caller (previous : Option ClassId)
  | removed (found : Bool)
  | table (table : SlotTable)
  | resolved (resolved : Option Heap.Resolved)
  | outcome (result : Except Fault Value)

/- Change the heap and yield what the change yields. -/
def Session.onHeap
    {α : Type}
    (change : Heap → α × Heap) : Session α := do
  let w ← get
  let (result, heap) := change w.world.heap
  set { w with world := { w.world with heap } }
  return result

/-
  Do what is asked. The tuning of a new site depends on its place
  among all sites.
-/
def Request.perform
    (run : Runner)
    (tunings : SiteId → Tuning) : Request → Session Reply
  | .newClass handle name parent =>
    return .cls (← Session.newClass handle name parent)
  | .newInstance handle cls =>
    return .inst (← Session.newInstance handle cls)
  | .newCallable handle name body =>
    return .func (← Session.newCallable handle name body)
  | .newSite handle name => do
    let tuning := tunings (← get).world.sites.size
    return .site (← Session.newSite handle name tuning)
  | .newContext handle caller policy logged => do
    Session.newContext handle caller policy logged
    return .done
  | .setCaller context caller =>
    return .caller (← Session.setCaller context caller)
  | .define cls name visibility body =>
    Session.onHeap fun heap =>
      (.done, heap.defineMethod cls name visibility body)
  | .defineStatic cls name body =>
    Session.onHeap fun heap =>
      (.done, heap.defineStatic cls name body)
  | .remove cls name =>
    return .removed
      (← Session.onHeap fun heap => heap.removeMethod cls name)
  | .table cls =>
    return .table (← Session.onHeap fun heap => heap.slotTable cls)
  | .resolve cls name =>
    return .resolved
      (← Session.onHeap fun heap => heap.resolve cls name)
  | .method context receiver name args =>
    return .outcome
      (← Session.act context (invokeMethod run receiver name args))
  | .site context id receiver args =>
    return .outcome
      (← Session.act context (invokeSite run id receiver args))

------------------------------------------------------------
-- Scripts
------------------------------------------------------------

/-
  What can be seen of a workspace: the members and versions of
  classes, the calling classes of contexts, and the log.
-/
structure View where
  members :
    ClassId →
      Option (List MethodRecord × List (String × Callable))
  version : ClassId → Nat
  caller : String → Option ClassId
  log : List String

/- What can be seen of a workspace. -/
def Workspace.view
    (w : Workspace) : View where
  members id :=
    (w.world.heap.class? id).map fun c => (c.methods, c.statics)
  version := w.world.heap.version
  caller name := (w.context name).context.caller
  log := w.world.log

/- A step of a script: its reply, and what is seen after it. -/
structure Moment where
  reply : Reply
  view : View

/- The next request, by all moments so far, latest first. -/
abbrev Script :=
  List Moment → Request

/- The moments of some steps, latest first, and the workspace. -/
def Script.run
    (script : Script)
    (run : Runner)
    (tunings : SiteId → Tuning) : Nat → List Moment × Workspace
  | 0 => ([], {})
  | steps + 1 =>
    let (moments, w) := Script.run script run tunings steps
    let (reply, w) := (script moments).perform run tunings w
    (⟨reply, w.view⟩ :: moments, w)

------------------------------------------------------------
-- Workspaces As Machines
------------------------------------------------------------

theorem lookup_filter_ne
    {α : Type}
    (names : List (String × α))
    {name other : String}
    (hOther : other ≠ name) :
    (names.filter fun binding => binding.1 ≠ name).lookup other =
      names.lookup other := by
  induction names with
  | nil => rfl
  | cons first rest ih =>
      rcases first with ⟨key, old⟩
      by_cases hKey : key = name
      · have hSkip : (other == key) = false := by
          simp [hKey, hOther]
        rw [List.filter_cons_of_neg (by simp [hKey]),
          List.lookup_cons, hSkip, ih]
      · rw [List.filter_cons_of_pos (by simp [hKey]),
          List.lookup_cons, List.lookup_cons, ih]

/- Binding a name hides its earlier binding and no other. -/
theorem lookup_bindName
    {α : Type}
    (names : List (String × α))
    (name : String)
    (value : α)
    (other : String) :
    (bindName names name value).lookup other =
      if other = name then some value
      else names.lookup other := by
  unfold bindName
  rw [List.lookup_cons]
  by_cases hName : other = name
  · simp [hName]
  · rw [if_neg hName, beq_false_of_ne hName]
    exact lookup_filter_ne names hName

/- A fresh site remembers nothing that could be wrong. -/
theorem Machine.Coherent.newSite
    {m : Machine}
    (hMachine : m.Coherent)
    (name : String)
    (tuning : Tuning) :
    Machine.Coherent
      { m with world := (m.world.newSite name tuning).2 } where
  heap := hMachine.heap
  sites id site hSite := by
    simp only [World.newSite, Array.getElem?_push] at hSite
    split at hSite
    next =>
      cases hSite
      exact Site.coherent_new m.world.heap name tuning
    next => exact hMachine.sites id site hSite

namespace Workspace

/- The machine that calls in a named context run on. -/
def machine
    (w : Workspace)
    (name : String) : Machine :=
  ⟨w.world, (w.context name).context⟩

/- The workspace after a change of the world and one context. -/
def withContext
    (w : Workspace)
    (world : World)
    (name : String)
    (named : NamedContext) : Workspace :=
  { w with world, contexts := bindName w.contexts name named }

theorem machine_withContext
    (w : Workspace)
    (world : World)
    (name : String)
    (named : NamedContext)
    (other : String) :
    (w.withContext world name named).machine other =
      if other = name then ⟨world, named.context⟩
      else ⟨world, (w.context other).context⟩ := by
  have hContext :
      (w.withContext world name named).context other =
        if other = name then named else w.context other := by
    unfold context withContext
    rw [lookup_bindName]
    split <;> rfl
  unfold machine
  rw [hContext]
  split <;> rfl

/- The world of a workspace is coherent in every context. -/
def Coherent
    (w : Workspace) : Prop :=
  ∀ context, Machine.Coherent ⟨w.world, context⟩

/- Workspaces whose machines are alike, context by context. -/
def Alike
    (w₁ w₂ : Workspace) : Prop :=
  ∀ name, (w₁.machine name).Alike (w₂.machine name)

theorem coherent_empty :
    Coherent {} := by
  intro context
  refine ⟨Heap.coherent_empty, ?_⟩
  intro id site hSite
  simp at hSite

theorem Coherent.of_machine
    {w : Workspace}
    {context : Context}
    (hMachine : Machine.Coherent ⟨w.world, context⟩) :
    w.Coherent :=
  fun _ => ⟨hMachine.heap, hMachine.sites⟩

theorem Coherent.alike
    {w : Workspace}
    (hCoherent : w.Coherent) :
    w.Alike w :=
  fun name => .refl (hCoherent (w.context name).context)

theorem Alike.left
    {w₁ w₂ : Workspace}
    (hAlike : w₁.Alike w₂) :
    w₁.Coherent :=
  .of_machine (hAlike "").left

/- What can be seen is part of the outline. -/
theorem Alike.view
    {w₁ w₂ : Workspace}
    (hAlike : w₁.Alike w₂) :
    w₁.view = w₂.view := by
  have hSame := (hAlike "").sameLayout
  have hMembers : w₁.view.members = w₂.view.members := by
    funext id
    exact Heap.map_class?_of_content
      ((hSame id).content id List.mem_cons_self)
      (fun c => (c.methods, c.statics)) fun _ => rfl
  have hVersion : w₁.view.version = w₂.view.version := by
    funext id
    exact (hSame id).version
  have hCaller : w₁.view.caller = w₂.view.caller := by
    funext name
    exact (hAlike name).caller
  have hLog : w₁.view.log = w₂.view.log :=
    congrArg Outline.log (hAlike "").outline
  calc
    w₁.view =
        ⟨w₁.view.members, w₁.view.version, w₁.view.caller,
          w₁.view.log⟩ := rfl
    _ = w₂.view := by rw [hMembers, hVersion, hCaller, hLog]

/- The worlds of some machines with the contexts of others. -/
theorem Alike.machine_mk
    {w₁ w₂ : Workspace}
    (hAlike : w₁.Alike w₂)
    {m₁ m₂ : Machine}
    (hMachine : m₁.Alike m₂)
    (name : String) :
    Machine.Alike ⟨m₁.world, (w₁.context name).context⟩
      ⟨m₂.world, (w₂.context name).context⟩ := by
  refine ⟨⟨hMachine.left.heap, hMachine.left.sites⟩,
    ⟨hMachine.right.heap, hMachine.right.sites⟩, ?_⟩
  have hWorld := hMachine.outline
  have hContext := (hAlike name).outline
  simp only [Machine.outline, machine, Outline.mk.injEq]
    at hWorld hContext ⊢
  exact ⟨hWorld.1, hWorld.2.1, hWorld.2.2.1, hWorld.2.2.2.1,
    hContext.2.2.2.2⟩

/- A change of the worlds and of one context. -/
theorem Alike.withContext
    {w₁ w₂ : Workspace}
    (hAlike : w₁.Alike w₂)
    {m₁ m₂ : Machine}
    (hMachine : m₁.Alike m₂)
    (name : String)
    {named₁ named₂ : NamedContext}
    (hLeft : named₁.context = m₁.context)
    (hRight : named₂.context = m₂.context) :
    (w₁.withContext m₁.world name named₁).Alike
      (w₂.withContext m₂.world name named₂) := by
  intro other
  rw [machine_withContext, machine_withContext]
  split
  next =>
    rw [hLeft, hRight]
    exact hMachine
  next => exact hAlike.machine_mk hMachine other

end Workspace

------------------------------------------------------------
-- Sessions On Workspaces That Are Alike
------------------------------------------------------------

namespace Session

/- Sessions that end with one result in workspaces that are alike. -/
structure Same
    {α : Type}
    (end₁ end₂ : α × Workspace) : Prop where
  result : end₁.1 = end₂.1
  workspace : end₁.2.Alike end₂.2

variable {α β : Type} {w₁ w₂ : Workspace}

theorem Same.map
    {end₁ end₂ : α × Workspace}
    (hSame : Same end₁ end₂)
    (f : α → β) :
    Same (f end₁.1, end₁.2) (f end₂.1, end₂.2) :=
  ⟨congrArg f hSame.result, hSame.workspace⟩

/- Actions that agree in a context agree as sessions. -/
theorem same_act
    (hAlike : w₁.Alike w₂)
    {name : String}
    {action₁ action₂ : Action α}
    (hAgree :
      Agree (action₁.run (w₁.machine name))
        (action₂.run (w₂.machine name))) :
    Same ((act name action₁).run w₁)
      ((act name action₂).run w₂) :=
  ⟨hAgree.result,
    hAlike.withContext hAgree.machine name rfl rfl⟩

/- The same step of the heap. -/
theorem same_onHeap
    (hAlike : w₁.Alike w₂)
    (change : Heap → α × Heap)
    (step : HeapStep)
    (hStep : ∀ heap, (change heap).2 = heap.step step)
    (hResult :
      (change w₁.world.heap).1 = (change w₂.world.heap).1) :
    Same ((onHeap change).run w₁) ((onHeap change).run w₂) := by
  refine ⟨hResult, ?_⟩
  intro name
  have hMachine := (hAlike name).step step
  simp only [Machine.withHeap, Workspace.machine,
    ← hStep] at hMachine
  exact hMachine

/- The same change of names. -/
theorem same_modifyNames
    (hAlike : w₁.Alike w₂)
    (change : Directory → Directory) :
    Same ((modifyNames change).run w₁)
      ((modifyNames change).run w₂) := by
  refine ⟨rfl, ?_⟩
  intro name
  have hMachine := hAlike name
  refine ⟨⟨hMachine.left.heap, hMachine.left.sites⟩,
    ⟨hMachine.right.heap, hMachine.right.sites⟩, ?_⟩
  exact congrArg
    (fun outline : Outline =>
      { outline with names := change outline.names })
    hMachine.outline

/- The same change of names, by a result. -/
theorem Same.modifyNames
    {end₁ end₂ : α × Workspace}
    (hSame : Same end₁ end₂)
    (change : α → Directory → Directory) :
    Same
      (end₁.1,
        ((Session.modifyNames (change end₁.1)).run end₁.2).2)
      (end₂.1,
        ((Session.modifyNames (change end₂.1)).run end₂.2).2) := by
  refine ⟨hSame.result, ?_⟩
  rw [hSame.result]
  exact (same_modifyNames hSame.workspace _).workspace

/- The same site, each tuned in its own way. -/
theorem same_newSite
    (hAlike : w₁.Alike w₂)
    (handle name : String)
    (tuning₁ tuning₂ : Tuning) :
    Same ((newSite handle name tuning₁).run w₁)
      ((newSite handle name tuning₂).run w₂) := by
  have hPlace : w₁.world.sites.size = w₂.world.sites.size := by
    have hNames := congrArg Outline.sites (hAlike "").outline
    have hSize := congrArg Array.size hNames
    simpa [Machine.outline, Workspace.machine] using hSize
  have hWorkspace :
      Workspace.Alike
        { w₁ with world := (w₁.world.newSite name tuning₁).2 }
        { w₂ with world := (w₂.world.newSite name tuning₂).2 } := by
    intro other
    have hMachine := hAlike other
    refine ⟨hMachine.left.newSite name tuning₁,
      hMachine.right.newSite name tuning₂, ?_⟩
    have hOutline := hMachine.outline
    simp only [Machine.outline, Workspace.machine,
      World.newSite, Array.map_push, Outline.mk.injEq]
      at hOutline ⊢
    exact ⟨hOutline.1, by rw [hOutline.2.1]; rfl, hOutline.2.2⟩
  have hPushed :
      Same
        (w₁.world.newSite name tuning₁ |>.1,
          { w₁ with world := (w₁.world.newSite name tuning₁).2 })
        (w₂.world.newSite name tuning₂ |>.1,
          { w₂ with world := (w₂.world.newSite name tuning₂).2 }) :=
    ⟨hPlace, hWorkspace⟩
  exact hPushed.modifyNames fun id names =>
    { names with sites := bindName names.sites handle id }

theorem same_newContext
    (hAlike : w₁.Alike w₂)
    (handle : String)
    (caller : Option ClassId)
    (policy : Policy)
    (logged : Bool) :
    Same ((newContext handle caller policy logged).run w₁)
      ((newContext handle caller policy logged).run w₂) := by
  refine ⟨rfl, ?_⟩
  have hMachine :
      Machine.Alike ⟨w₁.world, { caller, policy }⟩
        ⟨w₂.world, { caller, policy }⟩ := by
    have hWorld := hAlike handle
    apply hWorld.withContext
    exact congrArg
      (fun outline : Outline =>
        { outline with
          caller, policy, accessChecks := 0, queries := [] })
      hWorld.outline
  exact hAlike.withContext hMachine handle rfl rfl

theorem same_setCaller
    (hAlike : w₁.Alike w₂)
    (handle : String)
    (caller : Option ClassId) :
    Same ((setCaller handle caller).run w₁)
      ((setCaller handle caller).run w₂) := by
  have hCaller :=
    Action.Similar.setCaller caller _ _ (hAlike handle)
  exact ⟨(hAlike handle).caller,
    hAlike.withContext hCaller.machine handle rfl rfl⟩

end Session

------------------------------------------------------------
-- Performing Requests
------------------------------------------------------------

namespace Request

/- The context and the action of a call. -/
def call?
    (run : Runner) : Request → Option (String × Action Value)
  | .method context receiver name args =>
    some (context, invokeMethod run receiver name args)
  | .site context id receiver args =>
    some (context, invokeSite run id receiver args)
  | _ => none

/- A request does the same in workspaces that are alike. -/
theorem same_perform
    {run : Runner}
    (request : Request)
    (hCall :
      ∀ context action,
        request.call? run = some (context, action) →
        Action.Similar action action)
    (tunings₁ tunings₂ : SiteId → Tuning)
    {w₁ w₂ : Workspace}
    (hAlike : w₁.Alike w₂) :
    Session.Same ((request.perform run tunings₁).run w₁)
      ((request.perform run tunings₂).run w₂) := by
  have hBare : w₁.world.heap.bare = w₂.world.heap.bare :=
    (hAlike "").bare
  have hObjects := congrArg Heap.objects hBare
  have hSame := (hAlike "").sameLayout
  have hLeft : w₁.world.heap.Coherent := (hAlike "").left.heap
  have hRight : w₂.world.heap.Coherent := (hAlike "").right.heap
  cases request with
  | newClass handle name parent =>
      have hPlace :
          (w₁.world.heap.newClass name parent).1 =
            (w₂.world.heap.newClass name parent).1 := by
        have hSize :=
          congrArg (fun heap => heap.classes.size + 1) hBare
        simpa [Heap.bare, Heap.newClass] using hSize
      have hClass :=
        Session.same_onHeap hAlike
          (fun heap => heap.newClass name parent)
          (.newClass name parent) (fun _ => rfl) hPlace
      exact (hClass.modifyNames fun id names =>
        { names with
          classes := bindName names.classes handle id }).map
            Reply.cls
  | newInstance handle cls =>
      have hInstance :=
        Session.same_onHeap hAlike
          (fun heap => heap.newInstance cls) .newObject
          (fun _ => rfl)
          (congrArg (fun ident => Instance.mk ident cls) hObjects)
      exact (hInstance.modifyNames fun i names =>
        { names with
          instances := bindName names.instances handle i }).map
            Reply.inst
  | newCallable handle name body =>
      have hCallable :=
        Session.same_onHeap hAlike
          (fun heap => heap.newCallable name body) .newObject
          (fun _ => rfl)
          (congrArg (fun ident => Callable.mk ident name body)
            hObjects)
      exact (hCallable.modifyNames fun callable names =>
        { names with
          functions :=
            bindName names.functions handle callable }).map
              Reply.func
  | newSite handle name =>
      exact (Session.same_newSite hAlike handle name _ _).map
        Reply.site
  | newContext handle caller policy logged =>
      exact (Session.same_newContext hAlike handle caller policy
        logged).map fun _ => Reply.done
  | setCaller context caller =>
      exact (Session.same_setCaller hAlike context caller).map
        Reply.caller
  | define cls name visibility body =>
      exact Session.same_onHeap hAlike
        (fun heap =>
          (Reply.done, heap.defineMethod cls name visibility body))
        (.define cls name visibility body) (fun _ => rfl) rfl
  | defineStatic cls name body =>
      exact Session.same_onHeap hAlike
        (fun heap =>
          (Reply.done, heap.defineStatic cls name body))
        (.defineStatic cls name body) (fun _ => rfl) rfl
  | remove cls name =>
      have hRemoved :
          (w₁.world.heap.removeMethod cls name).1 =
            (w₂.world.heap.removeMethod cls name).1 := by
        rw [(w₁.world.heap.bare_removeMethod cls name).1,
          (w₂.world.heap.bare_removeMethod cls name).1]
        exact congrArg
          (fun heap => (heap.removeMethod cls name).1) hBare
      exact (Session.same_onHeap hAlike
        (fun heap => heap.removeMethod cls name)
        (.remove cls name) (fun _ => rfl) hRemoved).map
          Reply.removed
  | table cls =>
      have hTable :
          (w₁.world.heap.slotTable cls).1 =
            (w₂.world.heap.slotTable cls).1 := by
        rw [(hLeft.slotTable cls).1, (hRight.slotTable cls).1]
        exact (hSame cls).builtTable
      exact (Session.same_onHeap hAlike
        (fun heap => heap.slotTable cls)
        (.buildTable cls) (fun _ => rfl) hTable).map Reply.table
  | resolve cls name =>
      have hResolved :
          (w₁.world.heap.resolve cls name).1 =
            (w₂.world.heap.resolve cls name).1 := by
        rw [(hLeft.resolve cls name).1, (hRight.resolve cls name).1]
        exact (hSame cls).found? name
      exact (Session.same_onHeap hAlike
        (fun heap => heap.resolve cls name)
        (.lookUp cls name) (fun _ => rfl) hResolved).map
          Reply.resolved
  | method context receiver name args =>
      have hAgree := hCall context _ rfl
      exact (Session.same_act hAlike
        (hAgree _ _ (hAlike context))).map Reply.outcome
  | site context id receiver args =>
      have hAgree := hCall context _ rfl
      exact (Session.same_act hAlike
        (hAgree _ _ (hAlike context))).map Reply.outcome

/- A request keeps workspaces coherent if its call does. -/
theorem coherent_perform
    {run : Runner}
    (request : Request)
    (hCall :
      ∀ context action,
        request.call? run = some (context, action) →
        Action.Keeps action)
    (tunings : SiteId → Tuning)
    {w : Workspace}
    (hCoherent : w.Coherent) :
    ((request.perform run tunings).run w).2.Coherent := by
  cases hKind : request.call? run with
  | none =>
      have hSame :=
        request.same_perform
          (fun context action hSome => by
            rw [hKind] at hSome
            cases hSome)
          tunings tunings hCoherent.alike
      exact hSame.workspace.left
  | some call =>
      rcases call with ⟨context, action⟩
      have hEnd :=
        hCall context action hKind (w.machine context)
          (hCoherent _)
      cases request <;> cases hKind
      all_goals exact .of_machine hEnd

end Request

------------------------------------------------------------
-- Running Scripts
------------------------------------------------------------

namespace Script

variable {run : Runner}

theorem native_call?
    {discreet : Bool}
    (hRun : run.Native discreet)
    {request : Request}
    {context : String}
    {action : Action Value}
    (hCall : request.call? run = some (context, action)) :
    action.Native discreet := by
  cases request <;> cases hCall
  case method receiver name args =>
    exact .invokeMethod run hRun receiver name args
  case site id receiver args =>
    exact .invokeSite run hRun id receiver args

/- Scripts keep workspaces coherent. -/
theorem coherent_run
    {discreet : Bool}
    (hRun : run.Native discreet)
    (script : Script)
    (tunings : SiteId → Tuning)
    (steps : Nat) :
    (script.run run tunings steps).2.Coherent := by
  induction steps with
  | zero => exact Workspace.coherent_empty
  | succ steps ih =>
      exact Request.coherent_perform _
        (fun _ _ hCall => (native_call? hRun hCall).keeps)
        tunings ih

/- Scripts see the same whatever the tunings of sites. -/
theorem same_run
    (hRun : run.Native true)
    (script : Script)
    (tunings₁ tunings₂ : SiteId → Tuning)
    (steps : Nat) :
    Session.Same (script.run run tunings₁ steps)
      (script.run run tunings₂ steps) := by
  induction steps with
  | zero => exact ⟨rfl, Workspace.coherent_empty.alike⟩
  | succ steps ih =>
      rw [Script.run, Script.run]
      rcases hRun₁ : script.run run tunings₁ steps with
        ⟨moments₁, w₁⟩
      rcases hRun₂ : script.run run tunings₂ steps with
        ⟨moments₂, w₂⟩
      rw [hRun₁, hRun₂] at ih
      cases ih.result
      have hStep :=
        (script moments₁).same_perform
          (fun _ _ hCall => (native_call? hRun hCall).similar)
          tunings₁ tunings₂ ih.workspace
      refine ⟨?_, hStep.workspace⟩
      have hMoment :=
        congr (congrArg Moment.mk hStep.result)
          hStep.workspace.view
      exact congrArg (fun moment => moment :: moments₁) hMoment

end Script

end RegisterVM
