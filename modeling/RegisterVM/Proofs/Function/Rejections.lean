import RegisterVM.Proofs.Function.VirtualCalls

/-
  Call instructions that are refused before anything is called: the
  instruction has no name to call, or it addresses slots that the
  frame does not have. A refusal changes neither the frame nor the
  context, and nothing at all if there is no name or if the site is
  there already. But the name is looked up, and the site made,
  before the slots are checked: a refusal for the slots leaves a
  fresh site behind, if the offset had none.

  Key definitions include:
    * `Function.calledName?`
    * `Function.Refuses`
    * `CallState.prepared`
    * `CallState.GainsSite`

  Key theorems include:
    * `Function.siteReports_insertSite`
    * `CallState.prepared_of_sited`
    * `CallState.gainsSite_prepared`
    * `Function.refusal_leaves_at_most_site`
-/

namespace RegisterVM

------------------------------------------------------------
-- Refusals
------------------------------------------------------------

namespace Function

variable {fn : Function} {frame : Frame} {instr : Instr}
  {name : String}

/- The method that an instruction calls through a site. -/
def calledName?
    (fn : Function)
    (instr : Instr) : Option String :=
  if instr.opcode.isDynamicCall then
    (instr.operand? 1).bind fun id =>
      (fn.constant? id).bind Constant.str?
  else
    none

/-
  Calls that cannot be made: there is no name to call, or not all
  slots of the call are in the frame.
-/
inductive Refuses
    (fn : Function)
    (frame : Frame)
    (instr : Instr) : Prop where
  | unnamed
      (hName : fn.calledName? instr = none)
  | outside
      (hSlots :
        ∀ slots, callSlots instr = .ok slots →
          slots.within frame = false)

/- An id stands for a name if its constant is a text. -/
theorem methodName_eq_ok_iff
    {id : Nat} :
    fn.methodName id = .ok name ↔
      (fn.constant? id).bind Constant.str? = some name := by
  unfold methodName
  cases fn.constant? id with
  | none => exact iff_of_false nofun nofun
  | some constant =>
      cases constant with
      | str text =>
          exact ⟨fun h => congrArg some (Except.ok.inj h),
            fun h => congrArg Except.ok (Option.some.inj h)⟩
      | null | bool | int | real | position | object | type
      | statement | spread | deferred | slots | extension
      | localVar | args => exact iff_of_false nofun nofun

/- The site of a call with a name is found or made. -/
theorem siteFor_of_named
    (hName : fn.calledName? instr = some name)
    (world : World) :
    fn.siteFor world instr =
      .ok (fn.callSite world instr.offset name) := by
  unfold calledName? at hName
  split at hName
  next hDynamic =>
    rcases Option.bind_eq_some_iff.mp hName with ⟨id, hId, hText⟩
    have hMethod := methodName_eq_ok_iff.mpr hText
    unfold siteFor
    simp only [hDynamic, hId, hMethod]
    rfl
  next => cases hName

/- Without a name there is no site, and nothing is called. -/
theorem siteFor_of_unnamed
    (hName : fn.calledName? instr = none)
    (world : World) :
    ∃ e, fn.siteFor world instr = .error e ∧
      ∀ fault, e ≠ .fault fault := by
  unfold siteFor
  unfold calledName? at hName
  cases hDynamic : instr.opcode.isDynamicCall with
  | false => exact ⟨.notDynamic _ _, rfl, nofun⟩
  | true =>
      rw [if_pos hDynamic] at hName
      cases hId : instr.operand? 1 with
      | none => exact ⟨.missingName, rfl, nofun⟩
      | some id =>
          rw [hId] at hName
          cases hMethod : fn.methodName id with
          | error cause =>
              refine ⟨.name cause, ?_, nofun⟩
              simp only [hMethod]
              rfl
          | ok name =>
              rw [methodName_eq_ok_iff] at hMethod
              rw [Option.bind_some, hMethod] at hName
              cases hName

end Function

------------------------------------------------------------
-- Sites Made For A Call
------------------------------------------------------------

namespace Function

/- A table keeps its entries in order around a new one. -/
theorem insertSite_split
    (offset : Nat)
    (id : SiteId)
    (sites : List (Nat × SiteId)) :
    ∃ front back, sites = front ++ back ∧
      insertSite offset id sites = front ++ (offset, id) :: back := by
  induction sites with
  | nil => exact ⟨[], [], rfl, rfl⟩
  | cons first rest ih =>
      rw [insertSite]
      split
      next =>
        rcases ih with ⟨front, back, hRest, hInsert⟩
        exact ⟨first :: front, back, congrArg (first :: ·) hRest,
          congrArg (first :: ·) hInsert⟩
      next => exact ⟨[], first :: rest, rfl, rfl⟩

/- The report on an entry of a table. -/
def entryReport?
    (world : World)
    (entry : Nat × SiteId) : Option SiteReport :=
  world.sites[entry.2]?.map fun site =>
    ⟨entry.1, site.name, site.state.stats⟩

theorem siteReports_eq
    (fn : Function)
    (world : World) :
    fn.siteReports world = fn.sites.filterMap (entryReport? world) :=
  rfl

/- A new site does not change the reports on the others. -/
theorem entryReport?_newSite
    {world : World}
    {entry : Nat × SiteId}
    (hEntry : entry.2 < world.sites.size)
    (name : String)
    (tuning : Tuning) :
    entryReport? (world.newSite name tuning).2 entry =
      entryReport? world entry := by
  unfold entryReport? World.newSite
  rw [Array.getElem?_push_lt hEntry, Array.getElem?_eq_getElem hEntry]

/- The reports stay in order around that of a new site. -/
theorem siteReports_insertSite
    (fn : Function)
    {world : World}
    (hPlaces : ∀ entry ∈ fn.sites, entry.2 < world.sites.size)
    (offset : Nat)
    (name : String)
    (tuning : Tuning) :
    ∃ before after,
      fn.siteReports world = before ++ after ∧
        siteReports
            { fn with
              sites :=
                insertSite offset world.sites.size fn.sites }
            (world.newSite name tuning).2 =
          before ++
            ⟨offset, name, (SiteState.fresh tuning).stats⟩ ::
              after := by
  rcases insertSite_split offset world.sites.size fn.sites with
    ⟨front, back, hSplit, hInsert⟩
  have hSame :
      ∀ entry ∈ front ++ back,
        entryReport? (world.newSite name tuning).2 entry =
          entryReport? world entry := by
    rw [← hSplit]
    exact fun entry hEntry =>
      entryReport?_newSite (hPlaces entry hEntry) name tuning
  have hNew :
      entryReport? (world.newSite name tuning).2
          (offset, world.sites.size) =
        some ⟨offset, name, (SiteState.fresh tuning).stats⟩ := by
    unfold entryReport? World.newSite
    rw [Array.getElem?_push_size]
    rfl
  refine
    ⟨front.filterMap (entryReport? world),
      back.filterMap (entryReport? world), ?_, ?_⟩
  · rw [siteReports_eq, hSplit, List.filterMap_append]
  · rw [siteReports_eq, hInsert, List.filterMap_append,
      List.filterMap_cons_some hNew,
      List.filterMap_congr fun entry hEntry =>
        hSame entry (List.mem_append_left back hEntry),
      List.filterMap_congr fun entry hEntry =>
        hSame entry (List.mem_append_right front hEntry)]

theorem length_insertSite
    (offset : Nat)
    (id : SiteId)
    (sites : List (Nat × SiteId)) :
    (insertSite offset id sites).length = sites.length + 1 := by
  rcases insertSite_split offset id sites with
    ⟨front, back, hSplit, hInsert⟩
  rw [hInsert, hSplit, List.length_append, List.length_append,
    List.length_cons]
  rfl

/- A site that is not there is made in the place of the next one. -/
theorem callSite_of_absent
    {fn : Function}
    {offset : Nat}
    (hAbsent : fn.site? offset = none)
    (world : World)
    (name : String) :
    fn.callSite world offset name =
      (world.sites.size,
        { fn with
          sites := insertSite offset world.sites.size fn.sites },
        (world.newSite name fn.tuning).2) := by
  unfold callSite
  rw [hAbsent]
  rfl

end Function

namespace CallState

variable {s : CallState} {offset : Nat}

/- The state once the site of a call was found or made. -/
def prepared
    (s : CallState)
    (offset : Nat)
    (name : String) : CallState :=
  let made := s.function.callSite s.machine.world offset name
  { s with
    function := made.2.1
    machine := { s.machine with world := made.2.2 } }

/-
  A state that differs from another by a fresh site for a name at
  an offset that had none. All other sites, the rest of the
  function and of the world, the frame and the context are the
  same.
-/
structure GainsSite
    (s : CallState)
    (offset : Nat)
    (name : String)
    (s' : CallState) : Prop where
  absent : s.function.site? offset = none
  fresh :
    ∃ place, s'.function.site? offset = some place ∧
      s'.machine.world.sites[place]? =
        some (.new name s.function.tuning)
  others :
    ∀ other, other ≠ offset →
      s'.function.site? other = s.function.site? other
  function : ∃ sites, s'.function = { s.function with sites }
  world :
    s'.machine.world =
      { s.machine.world with
        sites :=
          s.machine.world.sites.push
            (.new name s.function.tuning) }
  frame : s'.frame = s.frame
  context : s'.machine.context = s.machine.context
  count :
    s'.function.sites.length = s.function.sites.length + 1
  reports :
    (∀ entry ∈ s.function.sites,
      entry.2 < s.machine.world.sites.size) →
      ∃ before after,
        s.function.siteReports s.machine.world = before ++ after ∧
          s'.function.siteReports s'.machine.world =
            before ++
              ⟨offset, name,
                (SiteState.fresh s.function.tuning).stats⟩ ::
                after

/- A site that is there is found, and nothing changes. -/
theorem prepared_of_sited
    (hSited : (s.function.site? offset).isSome)
    (name : String) :
    s.prepared offset name = s := by
  rcases Option.isSome_iff_exists.mp hSited with ⟨place, hPlace⟩
  unfold prepared Function.callSite
  rw [hPlace]

/- A site that is not there is made, and nothing else changes. -/
theorem gainsSite_prepared
    (hAbsent : s.function.site? offset = none)
    (name : String) :
    s.GainsSite offset name (s.prepared offset name) := by
  unfold prepared
  rw [Function.callSite_of_absent hAbsent]
  exact
    { absent := hAbsent
      fresh :=
        ⟨s.machine.world.sites.size,
          by
            rw [Function.site?, Function.lookup_insertSite,
              if_pos rfl],
          Array.getElem?_push_size⟩
      others := by
        intro other hOther
        rw [Function.site?, Function.lookup_insertSite,
          if_neg hOther]
        rfl
      function := ⟨_, rfl⟩
      world := rfl
      frame := rfl
      context := rfl
      count := Function.length_insertSite _ _ _
      reports := fun hPlaces =>
        s.function.siteReports_insertSite hPlaces offset name
          s.function.tuning }

end CallState

------------------------------------------------------------
-- What Refused Calls Leave
------------------------------------------------------------

namespace Function

variable {s : CallState} {instr : Instr}

/- Results that say that nothing was called. -/
def NotCalled
    (result : Except CallError Unit) : Prop :=
  ∃ e, result = .error e ∧ ∀ fault, e ≠ .fault fault

/- Without a name, a call ends at once. -/
theorem callVirtual_of_unnamed
    (run : Runner)
    (hName : s.function.calledName? instr = none) :
    ∃ result, callVirtual run instr s = (result, s) ∧
      NotCalled result := by
  rcases siteFor_of_unnamed hName s.machine.world with
    ⟨e, hError, hCause⟩
  refine ⟨.error e, ?_, e, rfl, hCause⟩
  unfold callVirtual
  rw [hError]

/- A call without all its slots is one that misses an operand. -/
theorem callSlots_eq_error
    {e : CallError}
    (hSlots : callSlots instr = .error e) :
    ∃ position, e = .missingOperand position := by
  have hOperand :
      ∀ position e', callOperand instr position = .error e' →
        e' = .missingOperand position := by
    intro position e' hMissing
    unfold callOperand at hMissing
    split at hMissing <;> cases hMissing
    rfl
  unfold callSlots at hSlots
  cases hReceiver : callOperand instr 0 with
  | error e' =>
      rw [hReceiver] at hSlots
      cases hSlots
      exact ⟨0, hOperand 0 e hReceiver⟩
  | ok receiver =>
  cases hBase : callOperand instr 2 with
  | error e' =>
      rw [hReceiver, hBase] at hSlots
      cases hSlots
      exact ⟨2, hOperand 2 e hBase⟩
  | ok base =>
  cases hCount : callOperand instr 3 with
  | error e' =>
      rw [hReceiver, hBase, hCount] at hSlots
      cases hSlots
      exact ⟨3, hOperand 3 e hCount⟩
  | ok count =>
  cases hResult : callOperand instr 4 with
  | error e' =>
      rw [hReceiver, hBase, hCount, hResult] at hSlots
      cases hSlots
      exact ⟨4, hOperand 4 e hResult⟩
  | ok result =>
      rw [hReceiver, hBase, hCount, hResult] at hSlots
      cases hSlots

/- Outside of the frame, a call ends with its site prepared. -/
theorem callVirtual_of_outside
    (run : Runner)
    {name : String}
    (hName : s.function.calledName? instr = some name)
    (hOutside :
      ∀ slots, callSlots instr = .ok slots →
        slots.within s.frame = false) :
    ∃ result,
      callVirtual run instr s =
          (result, s.prepared instr.offset name) ∧
        NotCalled result := by
  unfold callVirtual
  rw [siteFor_of_named hName s.machine.world]
  cases hSlots : callSlots instr with
  | error e =>
      rcases callSlots_eq_error hSlots with ⟨_, rfl⟩
      exact ⟨_, rfl, _, rfl, nofun⟩
  | ok slots =>
      simp only [hOutside slots hSlots]
      exact ⟨_, rfl, _, rfl, nofun⟩

/- With a name and all its slots, a call is made. -/
theorem callVirtual_of_within
    (run : Runner)
    {name : String}
    {slots : CallSlots}
    (hName : s.function.calledName? instr = some name)
    (hSlots : callSlots instr = .ok slots)
    (hWithin : slots.within s.frame = true) :
    ¬ NotCalled (callVirtual run instr s).1 := by
  unfold callVirtual
  rw [siteFor_of_named hName s.machine.world]
  simp only [hSlots, hWithin, if_true]
  generalize
    (invokeSite run _ _ _).run _ = outcome
  rcases outcome with ⟨fault | value, m⟩
  · rintro ⟨_, ⟨⟩, hCause⟩
    exact hCause fault rfl
  · rintro ⟨_, ⟨⟩, _⟩

/-
  A call is refused exactly if it ends in an error and nothing was
  called. A refused call leaves all as it was, its table of sites,
  their counters, the frame and the context, if it has no name or
  its offset has a site. Otherwise the refusal is for the slots of
  the call, and it leaves all as it was but for a fresh site.
-/
theorem refusal_leaves_at_most_site
    (run : Runner)
    (instr : Instr)
    (s s' : CallState)
    (result : Except CallError Unit)
    (hCall : callVirtual run instr s = (result, s')) :
    (s.function.Refuses s.frame instr ↔ NotCalled result) ∧
      (s.function.Refuses s.frame instr →
        (s.function.calledName? instr = none ∨
            (s.function.site? instr.offset).isSome →
          s' = s) ∧
          ∀ name, s.function.calledName? instr = some name →
            s.function.site? instr.offset = none →
            s.GainsSite instr.offset name s') := by
  cases hName : s.function.calledName? instr with
  | none =>
      rcases callVirtual_of_unnamed run hName with
        ⟨_, hEnd, hNotCalled⟩
      cases hCall.symm.trans hEnd
      exact ⟨iff_of_true (.unnamed hName) hNotCalled,
        fun _ => ⟨fun _ => rfl, nofun⟩⟩
  | some name =>
      by_cases hWithin :
          ∃ slots, callSlots instr = .ok slots ∧
            slots.within s.frame = true
      · rcases hWithin with ⟨slots, hSlots, hWithin⟩
        have hCalled :=
          callVirtual_of_within run hName hSlots hWithin
        rw [hCall] at hCalled
        have hMade : ¬ s.function.Refuses s.frame instr := by
          rintro (hUnnamed | hOutside)
          · cases hName.symm.trans hUnnamed
          · cases hWithin.symm.trans (hOutside slots hSlots)
        exact ⟨iff_of_false hMade hCalled,
          fun hRefuses => absurd hRefuses hMade⟩
      · have hOutside :
            ∀ slots, callSlots instr = .ok slots →
              slots.within s.frame = false := by
          intro slots hSlots
          by_contra hNot
          exact hWithin ⟨slots, hSlots, Bool.of_not_eq_false hNot⟩
        rcases callVirtual_of_outside run hName hOutside with
          ⟨_, hEnd, hNotCalled⟩
        cases hCall.symm.trans hEnd
        refine ⟨iff_of_true (.outside hOutside) hNotCalled,
          fun _ => ⟨?_, ?_⟩⟩
        · rintro (hUnnamed | hSited)
          · cases hUnnamed
          · exact CallState.prepared_of_sited hSited name
        · rintro _ ⟨⟩ hAbsent
          exact CallState.gainsSite_prepared hAbsent name

/-
  A function that calls "area" on its one local, and the sites and
  the frame that a call finds.
-/
def areaCall
    (sites : List (Nat × SiteId))
    (world : World)
    (frame : Frame) : CallState where
  function :=
    { name := "main"
      localCount := 1
      argCount := 0
      scope := {}
      widths := .compact
      decoder := .slot8 2 2
      consts := #[.str "area"]
      statements := #[]
      code := #[Opcode.callVirtual.byte, 0, 0, 0, 0, 0, 0]
      tuning := {}
      sites }
  frame
  machine := ⟨world, {}⟩

/-
  A frame without slots refuses the call, which has its site from
  an earlier time: the site keeps its entries and counters.
-/
theorem refusal_leaves_at_most_site_of_sited :
    let run : Runner := fun _ _ _ => pure .nil
    let instr : Instr :=
      ⟨0, .callVirtual,
        [⟨.slot, 0⟩, ⟨.id, 0⟩, ⟨.slot, 0⟩, ⟨.count, 0⟩, ⟨.slot, 0⟩],
        7⟩
    let s :=
      areaCall [(0, 0)] { sites := #[.new "area" {}] } ⟨0, 0, #[]⟩
    s.function.Refuses s.frame instr ∧
      callVirtual run instr s = (.error (.beyondFrame 0 0), s) := by
  intro run instr s
  have hOutside :
      ∀ slots, callSlots instr = .ok slots →
        slots.within s.frame = false := by
    rintro _ ⟨⟩
    rfl
  have hResult :
      (callVirtual run instr s).1 = .error (.beyondFrame 0 0) := by
    decide +kernel
  have hLeaves :=
    refusal_leaves_at_most_site run instr s
      (callVirtual run instr s).2 _ (Prod.ext hResult rfl)
  have hRefuses : s.function.Refuses s.frame instr :=
    .outside hOutside
  refine ⟨hRefuses, Prod.ext hResult ?_⟩
  exact (hLeaves.2 hRefuses).1 (Or.inr (by decide +kernel))

/-
  The same call without a site: it is refused all the same, and
  there is a site afterwards, with a report of its own.
-/
theorem refusal_leaves_site_of_first_call :
    let run : Runner := fun _ _ _ => pure .nil
    let instr : Instr :=
      ⟨0, .callVirtual,
        [⟨.slot, 0⟩, ⟨.id, 0⟩, ⟨.slot, 0⟩, ⟨.count, 0⟩, ⟨.slot, 0⟩],
        7⟩
    let s := areaCall [] {} ⟨0, 0, #[]⟩
    let result := callVirtual run instr s
    s.function.decoder.decode s.function.code 0 = .ok instr ∧
      result.1 = .error (.beyondFrame 0 0) ∧
      s.function.site? 0 = none ∧
      result.2.function.site? 0 = some 0 ∧
      s.function.siteReports s.machine.world = [] ∧
      result.2.function.siteReports result.2.machine.world =
        [⟨0, "area", (SiteState.fresh {}).stats⟩] := by
  decide +kernel

end Function

end RegisterVM
