import RegisterVM.Function.Call
import RegisterVM.Proofs.Dispatch.Verdicts
import RegisterVM.Proofs.Encoding.Image
import RegisterVM.Proofs.Frame.Writes
import RegisterVM.Proofs.Workspace.CallHistory

/-
  Calls that the code of a function makes. As long as its table of
  sites is filled by decoded calls only, the site at an offset is
  for the name that the call at that offset asks for. A call then
  comes to what the call by name comes to, on the receiver and the
  arguments that the frame held before; it changes the slot of the
  result and no other, and no slot at all if it fails.

  Key definitions include:
    * `Frame.Stored`
    * `Frame.Window`
    * `World.KeepsSites`
    * `Function.Faithful`
    * `ComesTo`
    * `Function.CallsByName`

  Key theorems include:
    * `Frame.exists_store?`
    * `Function.lookup_insertSite`
    * `Function.Faithful.callSite`
    * `comesTo_invokeSite`
    * `Function.callsByName`
-/

namespace RegisterVM

------------------------------------------------------------
-- Frames
------------------------------------------------------------

/- A slot yields the value that was stored last. -/
theorem Slot.value_store
    (slot : Slot)
    (v : Value) :
    (slot.store v).value = v := by
  cases v <;> rfl

namespace Frame

variable {frame : Frame}

/- A frame in which a value was stored in one slot. -/
structure Stored
    (frame : Frame)
    (i : Nat)
    (v : Value)
    (frame' : Frame) : Prop where
  value : frame'.load? i = some v
  others : ∀ j, j ≠ i → frame'.slots[j]? = frame.slots[j]?
  counts :
    frame'.localCount = frame.localCount ∧
      frame'.argCount = frame.argCount ∧
      frame'.slotCount = frame.slotCount

theorem exists_load?
    {i : Nat}
    (hInside : i < frame.slotCount) :
    ∃ v, frame.load? i = some v :=
  ⟨_, by rw [load?, Array.getElem?_eq_getElem hInside]; rfl⟩

/-
  Values that a frame holds in consecutive slots: so many of them,
  the first in the slot at the base.
-/
structure Window
    (frame : Frame)
    (base count : Nat)
    (args : List Value) : Prop where
  length : args.length = count
  loads : ∀ k, k < count → frame.load? (base + k) = args[k]?

/- The values of a window are collected in their order. -/
theorem Window.collect?_eq
    {base count : Nat}
    {args : List Value}
    (hWindow : frame.Window base count args) :
    frame.collect? base count = some args := by
  rcases hWindow with ⟨rfl, hLoads⟩
  exact mapM_range hLoads

/- All slots of a window inside of the frame can be read. -/
theorem exists_window
    {base count : Nat}
    (hInside : base + count ≤ frame.slotCount) :
    ∃ args, frame.Window base count args := by
  refine
    ⟨((frame.slots.toList.drop base).take count).map Slot.value,
      ?_, ?_⟩
  · rw [slotCount] at hInside
    rw [List.length_map, List.length_take, List.length_drop,
      Array.length_toList]
    omega
  · intro k hBound
    rw [load?, List.getElem?_map, List.getElem?_take_of_lt hBound,
      List.getElem?_drop, Array.getElem?_toList]

theorem exists_store?
    {i : Nat}
    (hInside : i < frame.slotCount)
    (v : Value) :
    ∃ frame', frame.store? i v = some frame' ∧
      frame.Stored i v frame' := by
  refine ⟨_, if_pos hInside, ?_, ?_, rfl, rfl, ?_⟩
  · rw [load?, Array.getElem?_modify, if_pos rfl,
      Array.getElem?_eq_getElem hInside]
    exact congrArg some (Slot.value_store _ v)
  · intro j hOther
    rw [Array.getElem?_modify, if_neg hOther.symm]
  · exact Array.size_modify

end Frame

------------------------------------------------------------
-- Sites That Stay
------------------------------------------------------------

/- All sites of a world are there in another, with their names. -/
def World.KeepsSites
    (world world' : World) : Prop :=
  ∀ (id : SiteId) (site : Site), world.sites[id]? = some site →
    ∃ site', world'.sites[id]? = some site' ∧
      site'.name = site.name

namespace World.KeepsSites

variable {world world' world'' : World}

theorem of_same
    (hSame : world'.sites = world.sites) :
    world.KeepsSites world' := by
  intro id site hSite
  exact ⟨site, by rw [hSame, hSite], rfl⟩

theorem trans
    (hFirst : world.KeepsSites world')
    (hSecond : world'.KeepsSites world'') :
    world.KeepsSites world'' := by
  intro id site hSite
  rcases hFirst id site hSite with ⟨site', hSite', hName⟩
  rcases hSecond id site' hSite' with ⟨site'', hSite'', hName'⟩
  exact ⟨site'', hSite'', hName'.trans hName⟩

theorem newSite
    (world : World)
    (name : String)
    (tuning : Tuning) :
    world.KeepsSites (world.newSite name tuning).2 := by
  intro id site hSite
  refine ⟨site, ?_, rfl⟩
  have hBound := (Array.getElem?_eq_some_iff.mp hSite).1
  rw [World.newSite, Array.getElem?_push_lt hBound]
  exact congrArg some (Array.getElem?_eq_some_iff.mp hSite).2

/- Calls change what sites remember, and nothing else of them. -/
theorem of_routine
    (routine : Routine)
    (m : Machine) :
    m.world.KeepsSites (routine.action.run m).2.world := by
  intro id site hSite
  have hSees := routine.sees id m
  unfold World.Sees at hSees
  rw [hSite] at hSees
  rcases hSees with ⟨state, hAfter, _⟩
  exact ⟨_, hAfter, rfl⟩

theorem of_dispatch
    (bodies : Bodies)
    (dispatch : Dispatch)
    (m : Machine) :
    m.world.KeepsSites
      ((dispatch.action bodies.runner).run m).2.world := by
  have hKeeps := of_routine (.call bodies dispatch .done) m
  rw [Routine.run_call] at hKeeps
  rcases hRun : (dispatch.action bodies.runner).run m with
    ⟨result, m'⟩
  rw [hRun] at hKeeps
  dsimp only at hKeeps
  rwa [Routine.run_done] at hKeeps

end World.KeepsSites

------------------------------------------------------------
-- Tables Of Sites
------------------------------------------------------------

namespace Function

variable {fn : Function} {world world' : World} {offset : Nat}
  {name : String}

/- The code of a function makes a call of a name at an offset. -/
def CallsAt
    (fn : Function)
    (offset : Nat)
    (name : String) : Prop :=
  ∃ instr id,
    fn.decoder.decode fn.code offset = .ok instr ∧
      instr.opcode = .callVirtual ∧
      instr.operand? 1 = some id ∧
      fn.constant? id = some (.str name)

/- The sites of a function are for the names that its calls have. -/
def Faithful
    (fn : Function)
    (world : World) : Prop :=
  ∀ offset place, fn.site? offset = some place →
    ∃ site, world.sites[place]? = some site ∧
      fn.CallsAt offset site.name

theorem Faithful.keepsSites
    (hFaithful : fn.Faithful world)
    (hKeeps : world.KeepsSites world') :
    fn.Faithful world' := by
  intro offset place hPlace
  rcases hFaithful offset place hPlace with
    ⟨site, hSite, hCalls⟩
  rcases hKeeps place site hSite with ⟨site', hSite', hName⟩
  exact ⟨site', hSite', hName ▸ hCalls⟩

/- There is one call at an offset, if any. -/
theorem CallsAt.unique
    {other : String}
    (hFirst : fn.CallsAt offset name)
    (hSecond : fn.CallsAt offset other) :
    name = other := by
  rcases hFirst with ⟨instr, id, hDecode, _, hId, hName⟩
  rcases hSecond with ⟨instr', id', hDecode', _, hId', hName'⟩
  rw [hDecode] at hDecode'
  cases hDecode'
  rw [hId] at hId'
  cases hId'
  rw [hName] at hName'
  cases hName'
  rfl

/- A table has what was put into it last, and all else as before. -/
theorem lookup_insertSite
    (offset : Nat)
    (id : SiteId)
    (sites : List (Nat × SiteId))
    (other : Nat) :
    (insertSite offset id sites).lookup other =
      if other = offset then some id else sites.lookup other := by
  induction sites with
  | nil =>
      rw [insertSite, List.lookup_cons]
      by_cases hSame : other = offset
      · rw [if_pos hSame, beq_iff_eq.mpr hSame]
      · rw [if_neg hSame, beq_false_of_ne hSame]
  | cons first rest ih =>
      rcases first with ⟨key, place⟩
      rw [insertSite]
      split
      next hBefore =>
        rw [List.lookup_cons, List.lookup_cons, ih]
        by_cases hKey : other = key
        · have hOther : other ≠ offset := by
            rw [hKey]
            exact Nat.ne_of_lt hBefore
          rw [beq_iff_eq.mpr hKey]
          exact (if_neg hOther).symm
        · rw [beq_false_of_ne hKey]
      next =>
        rw [List.lookup_cons]
        by_cases hSame : other = offset
        · rw [if_pos hSame, beq_iff_eq.mpr hSame]
        · rw [if_neg hSame, beq_false_of_ne hSame]

/- What is known after the site of a call was found or made. -/
structure Readied
    (fn : Function)
    (world : World)
    (offset : Nat)
    (name : String)
    (place : SiteId)
    (fn' : Function)
    (world' : World) : Prop where
  site : ∃ site, world'.sites[place]? = some site ∧ site.name = name
  place : fn'.site? offset = some place
  rest : ∃ sites, fn' = { fn with sites }
  faithful : fn'.Faithful world'
  keeps : world.KeepsSites world'
  coherent :
    ∀ context, Machine.Coherent ⟨world, context⟩ →
      Machine.Coherent ⟨world', context⟩

/- The site of a call has the name that the call has. -/
theorem Faithful.callSite
    (hFaithful : fn.Faithful world)
    (hCalls : fn.CallsAt offset name) :
    fn.Readied world offset name
      (fn.callSite world offset name).1
      (fn.callSite world offset name).2.1
      (fn.callSite world offset name).2.2 := by
  unfold Function.callSite
  cases hPlace : fn.site? offset with
  | some place =>
      rcases hFaithful offset place hPlace with
        ⟨site, hSite, hThere⟩
      exact
        { site := ⟨site, hSite, hThere.unique hCalls⟩
          place := hPlace
          rest := ⟨fn.sites, rfl⟩
          faithful := hFaithful
          keeps := .of_same rfl
          coherent := fun _ hMachine => hMachine }
  | none =>
      have hNew :
          (world.newSite name fn.tuning).2.sites[
              world.sites.size]? =
            some (.new name fn.tuning) :=
        Array.getElem?_push_size
      have hKeeps :=
        World.KeepsSites.newSite world name fn.tuning
      exact
        { site := ⟨_, hNew, rfl⟩
          place := by
            rw [site?, lookup_insertSite, if_pos rfl]
          rest := ⟨_, rfl⟩
          faithful := by
            intro other place hOther
            rw [site?, lookup_insertSite] at hOther
            split at hOther
            next hSame =>
              subst hSame
              cases hOther
              exact ⟨_, hNew, hCalls⟩
            next => exact hFaithful.keepsSites hKeeps other place hOther
          keeps := hKeeps
          coherent := fun _ hMachine =>
            hMachine.newSite name fn.tuning }

end Function

------------------------------------------------------------
-- What Calls Come To
------------------------------------------------------------

/-
  An outcome is what a call by name comes to: that of the body to
  which the name leads, on a machine that cannot be told apart, or
  the very fault to which it leads. If bodies look at outlines
  only, it is the outcome of the call by name.
-/
structure ComesTo
    (bodies : Bodies)
    (m : Machine)
    (receiver : Value)
    (name : String)
    (args : List Value)
    (outcome : Except Fault Value) : Prop where
  runs :
    let named : Call := ⟨.method receiver name args, m⟩
    ∃ m', m'.Alike named.landing.2 ∧
      outcome =
        (enter bodies.runner receiver args
          (named.landing.1, m')).1
  same :
    bodies.Discreet →
      outcome =
        ((invokeMethod bodies.runner receiver name args).run m).1

/- A call through a site comes to what the call by name does. -/
theorem comesTo_invokeSite
    (bodies : Bodies)
    {m : Machine}
    (hMachine : m.Coherent)
    {place : SiteId}
    {site : Site}
    (hSite : m.world.sites[place]? = some site)
    (receiver : Value)
    (args : List Value) :
    ComesTo bodies m receiver site.name args
      ((invokeSite bodies.runner place receiver args).run m).1 := by
  constructor
  · have hLanding :
        (Call.landing ⟨.site place receiver args, m⟩).1 =
            (Call.landing ⟨.method receiver site.name args, m⟩).1 ∧
          _ :=
      landing_agree _ _
        (invokeSite_agree Runner.steady_arrive hMachine hSite
          receiver args)
    refine ⟨_, hLanding.2, ?_⟩
    rw [← hLanding.1]
    exact congrArg Prod.fst
      ((Dispatch.site place receiver args).forwards
        bodies.runner m)
  · intro hDiscreet
    have hSteady : Action.Steady bodies.runner :=
      fun callable receiver args =>
        (bodies.native_runner (fun _ => hDiscreet) callable
          receiver args).similar
    exact (invokeSite_agree hSteady hMachine hSite receiver
      args).result

------------------------------------------------------------
-- Virtual Calls
------------------------------------------------------------

namespace Function

variable {fn : Function} {instr : Instr} {offset id : Nat}
  {slots : CallSlots} {name : String}

/- A decoded virtual call has a name and slots. -/
theorem exists_callSlots
    (hDecode : fn.decoder.decode fn.code offset = .ok instr)
    (hOpcode : instr.opcode = .callVirtual) :
    ∃ id slots, instr.operand? 1 = some id ∧
      callSlots instr = .ok slots := by
  have hKinds := (Decoder.drop_of_decode rfl hDecode).1
  have hLength := congrArg List.length hKinds
  rw [hOpcode, List.length_map] at hLength
  have hOperand :
      ∀ i, i < 5 → ∃ value, instr.operand? i = some value := by
    intro i hBound
    have hInside : i < instr.operands.length := by
      rw [hLength]
      exact hBound
    exact ⟨_, by
      rw [Instr.operand?, List.getElem?_eq_getElem hInside]
      rfl⟩
  rcases hOperand 0 (by decide) with ⟨receiver, hReceiver⟩
  rcases hOperand 1 (by decide) with ⟨id, hId⟩
  rcases hOperand 2 (by decide) with ⟨base, hBase⟩
  rcases hOperand 3 (by decide) with ⟨count, hCount⟩
  rcases hOperand 4 (by decide) with ⟨result, hResult⟩
  refine ⟨id, ⟨receiver, base, count, result⟩, hId, ?_⟩
  unfold callSlots callOperand
  rw [hReceiver, hBase, hCount, hResult]
  rfl

/- Only virtual calls have sites. -/
theorem siteFor_of_other
    (hOpcode : instr.opcode ≠ .callVirtual)
    (world : World) :
    fn.siteFor world instr =
      .error (.notDynamic instr.opcode instr.offset) := by
  have hStatic : instr.opcode.isDynamicCall = false := by
    cases hCase : instr.opcode <;>
      first
        | rfl
        | exact absurd hCase hOpcode
  unfold siteFor
  rw [hStatic]
  rfl

/-
  A decoded call has no name, or its site is found or made under
  that name.
-/
theorem siteFor_cases
    {world : World}
    (hFaithful : fn.Faithful world)
    (hDecode : fn.decoder.decode fn.code offset = .ok instr)
    (hOpcode : instr.opcode = .callVirtual)
    (hId : instr.operand? 1 = some id) :
    ((∀ name, fn.constant? id ≠ some (.str name)) ∧
        ∃ cause, fn.siteFor world instr = .error (.name cause)) ∨
      ∃ name place fn' world',
        fn.constant? id = some (.str name) ∧
          fn.siteFor world instr = .ok (place, fn', world') ∧
          fn.callSite world instr.offset name =
            (place, fn', world') ∧
          fn.Readied world instr.offset name place fn' world' := by
  have hSiteFor :
      fn.siteFor world instr =
        match fn.methodName id with
        | .error cause => .error (.name cause)
        | .ok name => .ok (fn.callSite world instr.offset name) := by
    unfold siteFor
    rw [hOpcode, hId]
    cases hMethod : fn.methodName id with
    | error cause =>
        simp only [hMethod]
        rfl
    | ok name =>
        simp only [hMethod]
        rfl
  rw [hSiteFor]
  unfold methodName
  cases hConstant : fn.constant? id with
  | none => exact Or.inl ⟨nofun, _, rfl⟩
  | some constant =>
      cases constant with
      | str name =>
          have hCalls : fn.CallsAt instr.offset name := by
            rw [(Decoder.decode_eq_ok hDecode).1]
            exact ⟨instr, id, hDecode, hOpcode, hId, hConstant⟩
          have hReadied := hFaithful.callSite hCalls
          exact Or.inr ⟨name, _, _, _, rfl, rfl, rfl, hReadied⟩
      | null | bool | int | real | position | object | type
      | statement | spread | deferred | slots | extension
      | localVar | args => exact Or.inl ⟨nofun, _, rfl⟩

/- A site that a decoded call asks for has the name of the call. -/
theorem Faithful.siteFor
    {world world' : World}
    (hFaithful : fn.Faithful world)
    (hDecode : fn.decoder.decode fn.code offset = .ok instr)
    {place : SiteId}
    {fn' : Function}
    (hSiteFor : fn.siteFor world instr = .ok (place, fn', world')) :
    ∃ name,
      fn.Readied world instr.offset name place fn' world' := by
  by_cases hOpcode : instr.opcode = .callVirtual
  · rcases exists_callSlots hDecode hOpcode with ⟨id, _, hId, _⟩
    rcases siteFor_cases hFaithful hDecode hOpcode hId with
      ⟨_, cause, hError⟩ | ⟨name, _, _, _, _, hMade, _, hReadied⟩
    · rw [hError] at hSiteFor
      cases hSiteFor
    · rw [hMade] at hSiteFor
      cases hSiteFor
      exact ⟨name, hReadied⟩
  · rw [siteFor_of_other hOpcode] at hSiteFor
    cases hSiteFor

/- The machine with the site of a call, found or made. -/
def readied
    (fn : Function)
    (m : Machine)
    (offset : Nat)
    (name : String) : Machine :=
  { m with world := (fn.callSite m.world offset name).2.2 }

/-
  What a virtual call does to its function, frame and machine. Its
  site has the name that its id stands for. If it ends well, then
  the name is there, all slots are, and the slot of the result has
  what the call by name comes to, on the receiver and on the
  arguments that the frame held before, one in each slot of the
  window. If it ends in an error, then the frame is what it was;
  and with a name and all slots, the error is what the call by
  name comes to. Without them nothing is called.
-/
structure CallsByName
    (bodies : Bodies)
    (instr : Instr)
    (id : Nat)
    (slots : CallSlots)
    (s : CallState)
    (result : Except CallError Unit)
    (s' : CallState) : Prop where
  site :
    ∀ name, s.function.constant? id = some (.str name) →
      ∃ place site,
        s'.function.site? instr.offset = some place ∧
          s'.machine.world.sites[place]? = some site ∧
          site.name = name
  ok :
    result = .ok () →
      ∃ name receiver args value,
        s.function.constant? id = some (.str name) ∧
          slots.within s.frame = true ∧
          s.frame.load? slots.receiver = some receiver ∧
          s.frame.Window slots.base slots.count args ∧
          ComesTo bodies
            (s.function.readied s.machine instr.offset name)
            receiver name args (.ok value) ∧
          s.frame.Stored slots.result value s'.frame
  error :
    ∀ e, result = .error e →
      s'.frame = s.frame ∧
        ∀ name, s.function.constant? id = some (.str name) →
          slots.within s.frame = true →
          ∃ receiver args fault,
            s.frame.load? slots.receiver = some receiver ∧
              s.frame.Window slots.base slots.count args ∧
              ComesTo bodies
                (s.function.readied s.machine instr.offset name)
                receiver name args (.error fault) ∧
              e = .fault fault
  unnamed :
    (∀ name, s.function.constant? id ≠ some (.str name)) →
      s' = s ∧ ∃ cause, result = .error (.name cause)
  outside :
    ∀ name, s.function.constant? id = some (.str name) →
      slots.within s.frame = false →
      s'.machine =
          s.function.readied s.machine instr.offset name ∧
        result =
          .error (.beyondFrame instr.offset s.frame.slotCount)

/- What a virtual call leaves behind. -/
structure Continues
    (s s' : CallState) : Prop where
  rest : ∃ sites, s'.function = { s.function with sites }
  faithful : s'.function.Faithful s'.machine.world
  keeps : s.machine.world.KeepsSites s'.machine.world
  coherent : s'.machine.Coherent

theorem CallSlots.bounds
    {frame : Frame}
    (hWithin : slots.within frame = true) :
    slots.base + slots.count ≤ frame.slotCount ∧
      slots.receiver < frame.slotCount ∧
      slots.result < frame.slotCount := by
  simpa [CallSlots.within, and_assoc] using hWithin

section Cases

variable {s : CallState}

/-
  How a virtual call goes: it has no name, or its site is found or
  made, and then a slot is not there, or the call is made through
  the site and its result is stored.
-/
theorem callVirtual_cases
    (run : Runner)
    (hFaithful : s.function.Faithful s.machine.world)
    (hDecode :
      s.function.decoder.decode s.function.code offset = .ok instr)
    (hOpcode : instr.opcode = .callVirtual)
    (hId : instr.operand? 1 = some id)
    (hSlots : callSlots instr = .ok slots) :
    ((∀ name, s.function.constant? id ≠ some (.str name)) ∧
        ∃ cause,
          callVirtual run instr s = (.error (.name cause), s)) ∨
      ∃ name place fn' world',
        s.function.constant? id = some (.str name) ∧
          s.function.readied s.machine instr.offset name =
            ⟨world', s.machine.context⟩ ∧
          s.function.Readied s.machine.world instr.offset name
            place fn' world' ∧
          (slots.within s.frame = false ∧
              callVirtual run instr s =
                (.error
                    (.beyondFrame instr.offset s.frame.slotCount),
                  ⟨fn', s.frame, ⟨world', s.machine.context⟩⟩) ∨
            slots.within s.frame = true ∧
              ∃ receiver args,
                s.frame.load? slots.receiver = some receiver ∧
                  s.frame.Window slots.base slots.count args ∧
                  callVirtual run instr s =
                    match
                      (invokeSite run place receiver args).run
                        ⟨world', s.machine.context⟩
                    with
                    | (.error fault, m) =>
                      (.error (.fault fault), ⟨fn', s.frame, m⟩)
                    | (.ok value, m) =>
                      (.ok (),
                        ⟨fn',
                          (s.frame.store? slots.result
                            value).getD s.frame,
                          m⟩)) := by
  rcases siteFor_cases hFaithful hDecode hOpcode hId with
    ⟨hNone, cause, hError⟩ |
      ⟨name, place, fn', world', hName, hSiteFor, hCallSite,
        hReadied⟩
  · refine Or.inl ⟨hNone, cause, ?_⟩
    unfold callVirtual
    rw [hError]
  · have hMade :
        s.function.readied s.machine instr.offset name =
          ⟨world', s.machine.context⟩ := by
      rw [readied, hCallSite]
    refine Or.inr
      ⟨name, place, fn', world', hName, hMade, hReadied, ?_⟩
    unfold callVirtual
    rw [hSiteFor]
    cases hWithin : slots.within s.frame with
    | false =>
        refine Or.inl ⟨rfl, ?_⟩
        simp only [hSlots, hWithin]
        rfl
    | true =>
        rcases CallSlots.bounds hWithin with ⟨hWindow, hFrom, _⟩
        rcases Frame.exists_load? hFrom with ⟨receiver, hReceiver⟩
        rcases Frame.exists_window hWindow with ⟨args, hArgs⟩
        refine Or.inr ⟨rfl, receiver, args, hReceiver, hArgs, ?_⟩
        simp only [hSlots, hWithin, if_true, hReceiver,
          hArgs.collect?_eq, Option.getD_some]
        rcases
          (invokeSite run place receiver args).run
            ⟨world', s.machine.context⟩ with
          ⟨_ | value, m⟩ <;> rfl

variable (bodies : Bodies)

/- Executing any instruction leaves sites for the names of calls. -/
theorem continues_callVirtual
    (hMachine : s.machine.Coherent)
    (hFaithful : s.function.Faithful s.machine.world)
    (hDecode :
      s.function.decoder.decode s.function.code offset =
        .ok instr) :
    Continues s (callVirtual bodies.runner instr s).2 := by
  have hSelf : Continues s s :=
    ⟨⟨s.function.sites, rfl⟩, hFaithful, .of_same rfl, hMachine⟩
  by_cases hOpcode : instr.opcode = .callVirtual
  · rcases exists_callSlots hDecode hOpcode with
      ⟨id, slots, hId, hSlots⟩
    rcases callVirtual_cases bodies.runner hFaithful hDecode
        hOpcode hId hSlots with
      ⟨_, cause, hEnd⟩ |
        ⟨name, place, fn', world', _, _, hReadied, hCase⟩
    · rw [hEnd]
      exact hSelf
    have hCoherent := hReadied.coherent _ hMachine
    rcases hCase with
      ⟨_, hEnd⟩ | ⟨_, receiver, args, _, _, hEnd⟩
    · rw [hEnd]
      exact ⟨hReadied.rest, hReadied.faithful, hReadied.keeps,
        hCoherent⟩
    · have hNative : bodies.runner.Native false :=
        bodies.native_runner nofun
      have hAfter :=
        (Action.Native.invokeSite _ hNative place receiver
          args).keeps _ hCoherent
      have hKeeps :=
        World.KeepsSites.of_dispatch bodies
          (.site place receiver args) ⟨world', s.machine.context⟩
      simp only [Dispatch.action] at hKeeps
      rw [hEnd]
      rcases hRun :
          (invokeSite bodies.runner place receiver args).run
            ⟨world', s.machine.context⟩ with
        ⟨_ | value, m⟩
      all_goals
        rw [hRun] at hAfter hKeeps
        exact ⟨hReadied.rest, hReadied.faithful.keepsSites hKeeps,
          hReadied.keeps.trans hKeeps, hAfter⟩
  · unfold callVirtual
    rw [siteFor_of_other hOpcode]
    exact hSelf

/- A virtual call does what the call by name does. -/
theorem callsByName
    (hMachine : s.machine.Coherent)
    (hFaithful : s.function.Faithful s.machine.world)
    (hDecode :
      s.function.decoder.decode s.function.code offset = .ok instr)
    (hOpcode : instr.opcode = .callVirtual)
    (hId : instr.operand? 1 = some id)
    (hSlots : callSlots instr = .ok slots) :
    CallsByName bodies instr id slots s
      (callVirtual bodies.runner instr s).1
      (callVirtual bodies.runner instr s).2 := by
  rcases callVirtual_cases bodies.runner hFaithful hDecode hOpcode
      hId hSlots with
    ⟨hNone, cause, hEnd⟩ |
      ⟨name, place, fn', world', hName, hMade, hReadied, hCase⟩
  · rw [hEnd]
    exact
      { site := fun name hName => absurd hName (hNone name)
        ok := fun hOk => by cases hOk
        error := fun e _ =>
          ⟨rfl, fun name hName => absurd hName (hNone name)⟩
        unnamed := fun _ => ⟨rfl, cause, rfl⟩
        outside := fun name hName => absurd hName (hNone name) }
  have hOnly :
      ∀ other, s.function.constant? id = some (.str other) →
        other = name := by
    intro other hOther
    rw [hName] at hOther
    cases hOther
    rfl
  have hCoherent := hReadied.coherent _ hMachine
  rcases hReadied.site with ⟨site, hSite, hSame⟩
  -- Whatever is called, the site keeps its place and its name.
  have hThere :
      ∀ m : Machine, world'.KeepsSites m.world →
        ∀ other, s.function.constant? id = some (.str other) →
          ∃ place site,
            fn'.site? instr.offset = some place ∧
              m.world.sites[place]? = some site ∧
              site.name = other := by
    intro m hKeeps other hOther
    rcases hKeeps place site hSite with ⟨later, hLater, hStill⟩
    refine ⟨place, later, hReadied.place, hLater, ?_⟩
    rw [hStill, hSame, hOnly other hOther]
  rcases hCase with
    ⟨hOutside, hEnd⟩ |
      ⟨hWithin, receiver, args, hReceiver, hArgs, hEnd⟩
  · rw [hEnd]
    exact
      { site := hThere _ (.of_same rfl)
        ok := fun hOk => by cases hOk
        error := by
          intro e _
          refine ⟨rfl, fun other _ hWithin => ?_⟩
          rw [hOutside] at hWithin
          cases hWithin
        unnamed := fun hNone => absurd hName (hNone name)
        outside := by
          intro other hOther _
          rw [hOnly other hOther, hMade]
          exact ⟨rfl, rfl⟩ }
  · have hComes :=
      comesTo_invokeSite bodies hCoherent hSite receiver args
    have hKeeps :=
      World.KeepsSites.of_dispatch bodies
        (.site place receiver args) ⟨world', s.machine.context⟩
    simp only [Dispatch.action] at hKeeps
    have hInside :
        ∀ other, s.function.constant? id = some (.str other) →
          ¬slots.within s.frame = false := by
      intro _ _ hOutside
      rw [hWithin] at hOutside
      cases hOutside
    rw [hEnd]
    rcases hRun :
        (invokeSite bodies.runner place receiver args).run
          ⟨world', s.machine.context⟩ with
      ⟨fault | value, m⟩
    · rw [hRun, hSame, ← hMade] at hComes
      rw [hRun] at hKeeps
      exact
        { site := hThere m hKeeps
          ok := fun hOk => by cases hOk
          error := by
            intro e hError
            cases hError
            refine ⟨rfl, fun other hOther _ => ?_⟩
            rw [hOnly other hOther]
            exact ⟨receiver, args, fault, hReceiver, hArgs, hComes,
              rfl⟩
          unnamed := fun hNone => absurd hName (hNone name)
          outside := fun other hOther hOutside =>
            absurd hOutside (hInside other hOther) }
    · rw [hRun, hSame, ← hMade] at hComes
      rw [hRun] at hKeeps
      rcases Frame.exists_store? (CallSlots.bounds hWithin).2.2
          value with
        ⟨frame', hStore, hStored⟩
      dsimp only
      rw [hStore]
      exact
        { site := hThere m hKeeps
          ok := by
            intro _
            exact ⟨name, receiver, args, value, hName, hWithin,
              hReceiver, hArgs, hComes, hStored⟩
          error := fun _ hError => by cases hError
          unnamed := fun hNone => absurd hName (hNone name)
          outside := fun other hOther hOutside =>
            absurd hOutside (hInside other hOther) }

end Cases

end Function

end RegisterVM
