import RegisterVM.Proofs.Function.VirtualCalls
import RegisterVM.Workspace.Functions

/-
  Functions in a workspace. Functions are made, and their calls
  are executed or asked for their sites, in any order and between
  requests of all kinds. Through all of it the sites of a function
  are for the names that its own code calls at their offsets, and
  so every call that is decoded from the code of a function, at
  any offset, on any frame and in any context, does what the call
  by name does.

  Key definitions include:
    * `Task`
    * `Task.perform`
    * `Workspace.after`
    * `Workspace.Faithful`

  Key theorems include:
    * `Session.callVirtual?_eq`
    * `Task.faithful_perform`
    * `Workspace.faithful_after`
    * `Workspace.virtual_calls_by_name`
-/

namespace RegisterVM

------------------------------------------------------------
-- Tasks
------------------------------------------------------------

namespace Session

/- Execute a call of a function, with a given way to run bodies. -/
def callVirtualBy
    (run : Runner)
    (function frame context : String)
    (instr : Instr) : Session (Option (Except CallError Unit)) := do
  let some fn ← function? function
    | return none
  let some slots ← frame? frame
    | return none
  let w ← get
  let named := w.context context
  let (result, s) :=
    Function.callVirtual run instr
      { function := fn
        frame := slots
        machine := ⟨w.world, named.context⟩ }
  set { w with
    world := s.machine.world
    contexts :=
      bindName w.contexts context
        { named with context := s.machine.context } }
  setFunction function s.function
  setFrame frame s.frame
  return some result

theorem callVirtual?_eq :
    callVirtual? = callVirtualBy Workspace.runner :=
  rfl

/- The instruction at an offset of the code of a function. -/
def instrAt?
    (handle : String)
    (offset : Nat) : Session (Option Instr) := do
  let some fn ← function? handle
    | return none
  return (fn.decoder.decode fn.code offset).toOption

end Session

/- What may happen in a workspace with functions. -/
inductive Task where
  | ask (request : Request)
  | make (handle : String) (parts : FunctionParts)
  | setFrame (handle : String) (frame : Frame)
  /- Ask for the site of the instruction at an offset. -/
  | findSite (handle : String) (offset : Nat)
  /- Execute the instruction at an offset. -/
  | call (handle frame context : String) (offset : Nat)

/- Do a task. -/
def Task.perform
    (run : Runner)
    (tunings : SiteId → Tuning) : Task → Session Unit
  | .ask request => do
    let _ ← request.perform run tunings
  | .make handle parts => do
    let _ ← Session.newFunction handle parts
  | .setFrame handle frame => Session.setFrame handle frame
  | .findSite handle offset => do
    let some instr ← Session.instrAt? handle offset
      | return
    let _ ← Session.siteFor? handle instr
  | .call handle frame context offset => do
    let some instr ← Session.instrAt? handle offset
      | return
    let _ ← Session.callVirtualBy run handle frame context instr

/- The workspace after some tasks. -/
def Workspace.after
    (run : Runner)
    (tunings : SiteId → Tuning)
    (tasks : List Task) : Workspace :=
  tasks.foldl
    (fun w task => ((task.perform run tunings).run w).2) {}

------------------------------------------------------------
-- Tables That Stay Faithful
------------------------------------------------------------

/- All sites of functions are for the names that their calls have. -/
structure Workspace.Faithful
    (w : Workspace) : Prop where
  coherent : w.Coherent
  functions :
    ∀ handle fn, w.functions.lookup handle = some fn →
      fn.Faithful w.world

namespace Workspace.Faithful

variable {w w' : Workspace}

/- The world may go on as long as sites keep their names. -/
theorem keepsSites
    (hFaithful : w.Faithful)
    (hCoherent : w'.Coherent)
    (hKeeps : w.world.KeepsSites w'.world)
    (hFunctions : w'.functions = w.functions) :
    w'.Faithful where
  coherent := hCoherent
  functions := by
    intro handle fn hFunction
    rw [hFunctions] at hFunction
    exact (hFaithful.functions handle fn hFunction).keepsSites
      hKeeps

/- A function may be bound whose sites are for its calls. -/
theorem bind
    (hFaithful : w.Faithful)
    (hCoherent : w'.Coherent)
    (hKeeps : w.world.KeepsSites w'.world)
    {handle : String}
    {fn : Function}
    (hBound : w'.functions = bindName w.functions handle fn)
    (hFunction : fn.Faithful w'.world) :
    w'.Faithful where
  coherent := hCoherent
  functions := by
    intro other found hFound
    rw [hBound, lookup_bindName] at hFound
    split at hFound
    next =>
      cases hFound
      exact hFunction
    next =>
      exact (hFaithful.functions other found hFound).keepsSites
        hKeeps

end Workspace.Faithful

/- Requests keep the sites that are there. -/
theorem Request.keepsSites_perform
    (bodies : Bodies)
    (request : Request)
    (tunings : SiteId → Tuning)
    (w : Workspace) :
    w.world.KeepsSites
      ((request.perform bodies.runner tunings).run w).2.world := by
  cases hCall : request.dispatch? with
  | none =>
      intro id site hSite
      rcases site_perform_of_none hCall tunings w id with
        hSame | ⟨hNone, _⟩
      · exact ⟨site, hSame.trans hSite, rfl⟩
      · rw [hNone] at hSite
        cases hSite
  | some call =>
      rcases call with ⟨context, dispatch⟩
      rw [world_perform_of_call bodies hCall]
      exact .of_routine _ (w.machine context)

theorem Request.functions_perform
    (run : Runner)
    (request : Request)
    (tunings : SiteId → Tuning)
    (w : Workspace) :
    ((request.perform run tunings).run w).2.functions =
      w.functions := by
  cases request <;> rfl

namespace Function

/- A function that was just made has no sites. -/
theorem sites_ofParts
    {parts : FunctionParts}
    {fn : Function}
    (hParts : ofParts parts = .ok fn) :
    fn.sites = [] := by
  unfold ofParts at hParts
  cases hDecoder : Decoder.ofWidths parts.widths with
  | error e =>
      rw [hDecoder] at hParts
      cases hParts
  | ok decoder =>
      rw [hDecoder] at hParts
      simp only [Except.mapError, bind, Except.bind] at hParts
      split at hParts
      next =>
        split at hParts
        next => cases hParts
        next =>
          cases hTuning : parts.tuning.check with
          | error e =>
              rw [hTuning] at hParts
              cases hParts
          | ok _ =>
              rw [hTuning] at hParts
              cases hParts
              rfl
      next => cases hParts

theorem faithful_ofParts
    {parts : FunctionParts}
    {fn : Function}
    (hParts : ofParts parts = .ok fn)
    (world : World) :
    fn.Faithful world := by
  intro offset place hPlace
  rw [site?, sites_ofParts hParts] at hPlace
  cases hPlace

end Function

------------------------------------------------------------
-- Running Sessions
------------------------------------------------------------

namespace Session

variable {α : Type}

theorem run_get_bind
    (rest : Workspace → Session α)
    (w : Workspace) :
    (get >>= rest).run w = (rest w).run w :=
  rfl

theorem run_function?_bind
    (handle : String)
    (rest : Option Function → Session α)
    (w : Workspace) :
    (function? handle >>= rest).run w =
      (rest (w.functions.lookup handle)).run w :=
  rfl

theorem run_frame?_bind
    (handle : String)
    (rest : Option Frame → Session α)
    (w : Workspace) :
    (frame? handle >>= rest).run w =
      (rest (w.frames.lookup handle)).run w :=
  rfl

theorem run_instrAt?_bind
    (handle : String)
    (offset : Nat)
    (rest : Option Instr → Session α)
    (w : Workspace) :
    (instrAt? handle offset >>= rest).run w =
      (rest
        ((w.functions.lookup handle).bind fun fn =>
          (fn.decoder.decode fn.code offset).toOption)).run w := by
  unfold instrAt?
  rw [bind_assoc, run_function?_bind]
  cases w.functions.lookup handle <;> rfl

end Session

------------------------------------------------------------
-- Tasks Keep Tables Faithful
------------------------------------------------------------

namespace Task

variable {w : Workspace}

/- Asking for a site makes it for the name that the call has. -/
theorem faithful_siteFor?
    (hFaithful : w.Faithful)
    {handle : String}
    {fn : Function}
    (hFunction : w.functions.lookup handle = some fn)
    {offset : Nat}
    {instr : Instr}
    (hDecode : fn.decoder.decode fn.code offset = .ok instr) :
    ((Session.siteFor? handle instr).run w).2.Faithful := by
  have hOwn := hFaithful.functions handle fn hFunction
  unfold Session.siteFor?
  rw [Session.run_function?_bind, hFunction]
  dsimp only
  rw [Session.run_get_bind]
  cases hSiteFor : fn.siteFor w.world instr with
  | error e => exact hFaithful
  | ok made =>
      rcases made with ⟨place, fn', world'⟩
      rcases hOwn.siteFor hDecode hSiteFor with ⟨name, hReadied⟩
      have hCoherent := hReadied.coherent {} (hFaithful.coherent {})
      exact hFaithful.bind (.of_machine hCoherent) hReadied.keeps
        rfl hReadied.faithful

/- Executing a call leaves all sites for the names of calls. -/
theorem faithful_callVirtualBy
    (bodies : Bodies)
    (hFaithful : w.Faithful)
    {handle : String}
    {fn : Function}
    (hFunction : w.functions.lookup handle = some fn)
    {offset : Nat}
    {instr : Instr}
    (hDecode : fn.decoder.decode fn.code offset = .ok instr)
    (frame context : String) :
    ((Session.callVirtualBy bodies.runner handle frame context
      instr).run w).2.Faithful := by
  have hOwn := hFaithful.functions handle fn hFunction
  unfold Session.callVirtualBy
  rw [Session.run_function?_bind, hFunction]
  dsimp only
  rw [Session.run_frame?_bind]
  cases w.frames.lookup frame with
  | none => exact hFaithful
  | some slots =>
      let s : CallState :=
        ⟨fn, slots, ⟨w.world, (w.context context).context⟩⟩
      have hMachine : s.machine.Coherent := hFaithful.coherent _
      have hContinues :=
        Function.continues_callVirtual bodies hMachine hOwn hDecode
      exact hFaithful.bind (.of_machine hContinues.coherent)
        hContinues.keeps rfl hContinues.faithful

/- A task keeps the sites of all functions for their calls. -/
theorem faithful_perform
    (bodies : Bodies)
    (tunings : SiteId → Tuning)
    (task : Task)
    (hFaithful : w.Faithful) :
    ((task.perform bodies.runner tunings).run w).2.Faithful := by
  cases task with
  | ask request =>
      have hNative : bodies.runner.Native false :=
        bodies.native_runner nofun
      have hCoherent :=
        request.coherent_perform
          (fun _ _ hCall => (Script.native_call? hNative hCall).keeps)
          tunings hFaithful.coherent
      exact hFaithful.keepsSites hCoherent
        (request.keepsSites_perform bodies tunings w)
        (request.functions_perform bodies.runner tunings w)
  | make handle parts =>
      simp only [perform, Session.newFunction]
      cases hParts : Function.ofParts parts with
      | error e => exact hFaithful
      | ok fn =>
          exact hFaithful.bind hFaithful.coherent (.of_same rfl) rfl
            (Function.faithful_ofParts hParts w.world)
  | setFrame handle frame =>
      exact hFaithful.keepsSites hFaithful.coherent (.of_same rfl) rfl
  | findSite handle offset =>
      simp only [perform]
      rw [Session.run_instrAt?_bind]
      cases hFunction : w.functions.lookup handle with
      | none => exact hFaithful
      | some fn =>
          cases hDecode : fn.decoder.decode fn.code offset with
          | error e =>
              simp only [Option.bind_some, hDecode]
              exact hFaithful
          | ok instr =>
              simp only [Option.bind_some, hDecode]
              exact faithful_siteFor? hFaithful hFunction hDecode
  | call handle frame context offset =>
      simp only [perform]
      rw [Session.run_instrAt?_bind]
      cases hFunction : w.functions.lookup handle with
      | none => exact hFaithful
      | some fn =>
          cases hDecode : fn.decoder.decode fn.code offset with
          | error e =>
              simp only [Option.bind_some, hDecode]
              exact hFaithful
          | ok instr =>
              simp only [Option.bind_some, hDecode]
              exact faithful_callVirtualBy bodies hFaithful hFunction
                hDecode frame context

end Task

------------------------------------------------------------
-- Virtual Calls In All Histories
------------------------------------------------------------

namespace Workspace

theorem faithful_empty :
    Faithful {} :=
  ⟨coherent_empty, nofun⟩

/- After any tasks, sites are for the names that calls have. -/
theorem faithful_after
    (bodies : Bodies)
    (tunings : SiteId → Tuning)
    (tasks : List Task) :
    (after bodies.runner tunings tasks).Faithful := by
  have hStart := faithful_empty
  unfold after
  generalize ({} : Workspace) = w at hStart ⊢
  induction tasks generalizing w with
  | nil => exact hStart
  | cons task tasks ih =>
      exact ih _ (task.faithful_perform bodies tunings hStart)

/-
  Whatever was done with a function, and around it, a virtual call
  decoded anywhere in its code does what the call by name does, on
  any frame and in any context. A site that is there already has
  the name that the id of the call stands for, and so has the site
  that the call leaves behind.
-/
theorem virtual_calls_by_name
    (bodies : Bodies)
    (tunings : SiteId → Tuning)
    (tasks : List Task)
    (w : Workspace)
    (hWorkspace : w = after bodies.runner tunings tasks)
    (handle : String)
    (fn : Function)
    (hFunction : w.functions.lookup handle = some fn)
    (offset : Nat)
    (instr : Instr)
    (hDecode : fn.decoder.decode fn.code offset = .ok instr)
    (hOpcode : instr.opcode = .callVirtual)
    (frame : Frame)
    (context : Context)
    (s : CallState)
    (hState : s = ⟨fn, frame, ⟨w.world, context⟩⟩) :
    ∃ id slots,
      instr.operand? 1 = some id ∧
        Function.callSlots instr = .ok slots ∧
        (∀ place, fn.site? offset = some place →
          ∃ site, w.world.sites[place]? = some site ∧
            fn.constant? id = some (.str site.name)) ∧
        Function.CallsByName bodies instr id slots s
          (Function.callVirtual bodies.runner instr s).1
          (Function.callVirtual bodies.runner instr s).2 := by
  have hFaithful := faithful_after bodies tunings tasks
  rw [← hWorkspace] at hFaithful
  have hOwn := hFaithful.functions handle fn hFunction
  have hMachine : s.machine.Coherent := by
    rw [hState]
    exact hFaithful.coherent context
  rcases Function.exists_callSlots hDecode hOpcode with
    ⟨id, slots, hId, hSlots⟩
  refine ⟨id, slots, hId, hSlots, ?_, ?_⟩
  · intro place hPlace
    rcases hOwn offset place hPlace with ⟨site, hSite, hCalls⟩
    rcases hCalls with
      ⟨other, otherId, hOther, _, hOtherId, hConstant⟩
    rw [hDecode] at hOther
    cases hOther
    rw [hId] at hOtherId
    cases hOtherId
    exact ⟨site, hSite, hConstant⟩
  · subst hState
    exact Function.callsByName bodies hMachine hOwn hDecode hOpcode
      hId hSlots

/-
  A call of a method that doubles its argument, with the result in
  the slot of the argument. It is made for the second time, when
  its site hits, and the argument is the one from before the call.
-/
theorem virtual_calls_by_name_of_overlap :
    let bodies : Bodies := fun _ _ args =>
      match args with
      | [.int i] => .done (.ok (.int (2 * i)))
      | _ => .done (.ok .nil)
    let frame : Frame :=
      ⟨2, 0,
        #[{ tag := .object, object := .inst ⟨0, 1⟩ },
          { tag := .int, int := 3 }]⟩
    let tasks : List Task :=
      [.ask (.newClass "Vec" "Vec" none),
       .ask
         (.define 1 "scale" .everyone (some ⟨0, "scale", .argc⟩)),
       .make "main"
         { name := "main"
           localCount := 2
           consts := #[.str "scale"]
           code := #[Opcode.callVirtual.byte, 0, 0, 0, 1, 1, 1] },
       .setFrame "frame" frame,
       .call "main" "frame" "context" 0]
    let w := after bodies.runner (fun _ => {}) tasks
    let instr : Instr :=
      ⟨0, .callVirtual,
        [⟨.slot, 0⟩, ⟨.id, 0⟩, ⟨.slot, 1⟩, ⟨.count, 1⟩, ⟨.slot, 1⟩],
        7⟩
    bodies.Discreet ∧
      ∃ fn, w.functions.lookup "main" = some fn ∧
        fn.decoder.decode fn.code 0 = .ok instr ∧
        fn.site? 0 = some 0 ∧
        ∃ s, Function.callVirtual bodies.runner instr
            ⟨fn, frame, ⟨w.world, {}⟩⟩ = (.ok (), s) ∧
          frame.Stored 1 (.int 6) s.frame ∧
            ((invokeMethod bodies.runner (.inst ⟨0, 1⟩) "scale"
              [.int 3]).run ⟨w.world, {}⟩).1 = .ok (.int 6) := by
  intro bodies frame tasks w instr
  have hDiscreet : bodies.Discreet := by
    intro _ _ args
    dsimp only [bodies]
    split <;> trivial
  have hMade :
      (w.functions.lookup "main").map
          (fun fn =>
            (fn.decoder.decode fn.code 0, fn.site? 0,
              (fn.constant? 0).bind Constant.str?,
              (Function.callVirtual bodies.runner instr
                ⟨fn, frame, ⟨w.world, {}⟩⟩).1)) =
        some (.ok instr, some 0, some "scale", .ok ()) := by
    decide +kernel
  have hDoubled :
      ((invokeMethod bodies.runner (.inst ⟨0, 1⟩) "scale"
        [.int 3]).run ⟨w.world, {}⟩).1 = .ok (.int 6) := by
    decide +kernel
  rcases Option.map_eq_some_iff.mp hMade with
    ⟨fn, hFunction, hParts⟩
  simp only [Prod.mk.injEq] at hParts
  rcases hParts with ⟨hDecode, hPlace, hName, hResult⟩
  rcases virtual_calls_by_name bodies (fun _ => {}) tasks w rfl
      "main" fn hFunction 0 instr hDecode rfl frame {} _ rfl with
    ⟨id, slots, hId, hSlots, _, hCalls⟩
  cases hId
  cases hSlots
  rcases hCalls.ok hResult with
    ⟨name, receiver, args, value, hConstant, _, hReceiver, hArgs,
      hComes, hStored⟩
  have hScale : name = "scale" := by
    rw [hConstant] at hName
    exact Option.some.inj hName
  have hReady :
      fn.readied ⟨w.world, {}⟩ instr.offset name =
        ⟨w.world, {}⟩ := by
    rw [Function.readied, Function.callSite, hPlace]
  have hOne : args = [.int 3] :=
    (Option.some.inj hArgs.collect?_eq).symm
  have hVec : receiver = .inst ⟨0, 1⟩ :=
    (Option.some.inj hReceiver).symm
  have hSame := hComes.same hDiscreet
  rw [hReady, hScale, hOne, hVec, hDoubled] at hSame
  cases hSame
  exact ⟨hDiscreet, fn, hFunction, hDecode, hPlace, _,
    Prod.ext hResult rfl, hStored, hDoubled⟩

end Workspace

end RegisterVM
