import RegisterVM.Proofs.Concurrency.Threads
import RegisterVM.Proofs.Dispatch.Verdicts
import RegisterVM.Proofs.Dispatch.Visits

/-
  Threads that call through sites, and threads that call by name.
  While no class changes, what a thread has looked up or resolved
  at a site stays right until the thread takes the route, whatever
  others do in between. So threads that share sites get the very
  answers of threads that call by name: the steps that a call takes
  at its site do not show, and where it lands, so does the call by
  name.

  Key definitions include:
    * `Heap.Settles`
    * `Phase.Sound`
    * `Thread.Matches`
    * `Pool.Matches`
    * `Pool.LandsByName`

  Key theorems include:
    * `Heap.Coherent.settles_step`
    * `Phase.advance_follows`
    * `Pool.Matches.step`
    * `Pool.exists_matches_run`
-/

namespace RegisterVM

------------------------------------------------------------
-- Classes That Stay As They Are
------------------------------------------------------------

namespace Heap

/- Classes that are there stay there, and look the same. -/
def Settles
    (heap heap' : Heap) : Prop :=
  ∀ cls, (heap.class? cls).isSome →
    (heap'.class? cls).isSome ∧ SameLayout heap heap' cls

/- Kept tables do not show. -/
theorem Settles.of_bare_eq
    {heap heap' : Heap}
    (hBare : heap'.bare = heap.bare) :
    heap.Settles heap' := by
  intro cls hClass
  refine ⟨?_, .of_bare_eq hBare cls⟩
  have hThere :
      ∀ heap : Heap,
        (heap.bare.class? cls).isSome =
          (heap.class? cls).isSome := by
    intro heap
    rw [class?_bare, Option.isSome_map]
  rw [← hThere, hBare, hThere]
  exact hClass

/- Steps that change no class, such as the creation of one. -/
theorem Coherent.settles_step
    {heap : Heap}
    (hHeap : heap.Coherent)
    {step : HeapStep}
    (hStill : ∀ cls, ¬ step.Mutates heap cls) :
    heap.Settles (heap.step step) := by
  cases step with
  | newClass name parent =>
      intro cls hClass
      rcases Option.isSome_iff_exists.mp hClass with ⟨c, hSome⟩
      refine ⟨?_,
        hHeap.wellFormed.sameLayout_newClass name parent hSome⟩
      rw [Heap.step, class?_newClass_of_some name parent hSome]
      rfl
  | newObject =>
      exact fun cls hClass => ⟨hClass, .of_class? fun _ _ => rfl⟩
  | define cls name visibility body => exact absurd rfl (hStill cls)
  | defineStatic cls name body => exact absurd rfl (hStill cls)
  | remove cls name =>
      have hAbsent :
          name ∉ (heap.methods cls).map MethodRecord.name :=
        fun hMem => hStill cls ⟨rfl, hMem⟩
      rw [Heap.step, removeMethod_of_absent hAbsent]
      exact .of_bare_eq rfl
  | buildTable cls => exact .of_bare_eq (heap.bare_slotTable cls)
  | lookUp cls name => exact .of_bare_eq (heap.bare_resolve cls name)

/- The class of a receiver is there. -/
def Holds
    (heap : Heap) : Value → Prop
  | .inst i => (heap.class? i.cls).isSome
  | .cls c => (heap.class? c).isSome
  | _ => True

instance
    (heap : Heap)
    (receiver : Value) :
    Decidable (heap.Holds receiver) :=
  match receiver with
  | .inst i => inferInstanceAs (Decidable ((heap.class? i.cls).isSome))
  | .cls c => inferInstanceAs (Decidable ((heap.class? c).isSome))
  | .nil | .bool _ | .int _ | .real _ | .str _ | .func _ =>
    inferInstanceAs (Decidable True)

namespace Settles

variable {heap heap' : Heap} {receiver : Value}

theorem holds
    (hSettles : heap.Settles heap')
    (hHolds : heap.Holds receiver) :
    heap'.Holds receiver := by
  cases receiver with
  | inst i => exact (hSettles i.cls hHolds).1
  | cls c => exact (hSettles c hHolds).1
  | nil | bool | int | real | str | func => trivial

/- Receivers keep their keys. -/
theorem key?
    (hSettles : heap.Settles heap')
    (hHolds : heap.Holds receiver) :
    heap'.key? receiver = heap.key? receiver := by
  cases receiver with
  | inst i =>
      rw [Heap.key?, Heap.key?, (hSettles i.cls hHolds).2.version]
  | cls c => rw [Heap.key?, Heap.key?, (hSettles c hHolds).2.version]
  | nil | bool | int | real | str | func => rfl

/- And the routes of their keys stay right. -/
theorem route
    (hSettles : heap.Settles heap')
    (hHolds : heap.Holds receiver)
    {key : Key}
    (hKey : heap.key? receiver = some key)
    (name : String) :
    heap'.route key name = heap.route key name := by
  cases receiver with
  | inst i =>
      cases hKey
      exact (hSettles i.cls hHolds).2.route name
  | cls c =>
      cases hKey
      exact (hSettles c hHolds).2.route name
  | nil | bool | int | real | str | func => cases hKey

end Settles

end Heap

/- Classes and the names of sites stay as they are. -/
structure World.Settles
    (world world' : World) : Prop where
  heap : world.heap.Settles world'.heap
  sites :
    world'.sites.map Site.name = world.sites.map Site.name

theorem Machine.Alike.settles
    {m m' : Machine}
    (hAlike : m'.Alike m) :
    m.world.Settles m'.world where
  heap := .of_bare_eq hAlike.bare
  sites := congrArg Outline.sites hAlike.outline

------------------------------------------------------------
-- Phases That Are Right
------------------------------------------------------------

/- The route leads where the name leads. -/
def Route.Leads
    (heap : Heap)
    (receiver : Value)
    (name : String)
    (route : Route) : Prop :=
  route = .generic ∨
    ∃ key, heap.key? receiver = some key ∧
      route = heap.route key name

/- What a thread knows of a site holds good. -/
structure Site.Stands
    (world : World)
    (id : SiteId)
    (receiver : Value)
    (site : Site) : Prop where
  holds : world.heap.Holds receiver
  name : world.sites[id]?.map Site.name = some site.name

theorem Site.Stands.settles
    {world world' : World}
    {id : SiteId}
    {receiver : Value}
    {site : Site}
    (hStands : site.Stands world id receiver)
    (hSettles : world.Settles world') :
    site.Stands world' id receiver where
  holds := hSettles.heap.holds hStands.holds
  name := by
    rw [← Array.getElem?_map, hSettles.sites, Array.getElem?_map]
    exact hStands.name

/- What a call has found out so far is right. -/
def Phase.Sound
    (world : World) : Dispatch → Phase → Prop
  | .site id receiver _, .missed site key =>
    site.Stands world id receiver ∧
      world.heap.key? receiver = some key
  | .site id receiver _, .resolved site key route =>
    site.Stands world id receiver ∧
      world.heap.key? receiver = some key ∧
      route = world.heap.route key site.name
  | .site id receiver _, .routed site route =>
    site.Stands world id receiver ∧
      route.Leads world.heap receiver site.name
  | _, _ => True

/- And stays right while no class changes. -/
theorem Phase.Sound.settles
    {world world' : World}
    {dispatch : Dispatch}
    {phase : Phase}
    (hSound : phase.Sound world dispatch)
    (hSettles : world.Settles world') :
    phase.Sound world' dispatch := by
  cases dispatch with
  | method => cases phase <;> trivial
  | site id receiver args =>
      cases phase with
      | ready => trivial
      | missed site key =>
          rcases hSound with ⟨hStands, hKey⟩
          refine ⟨hStands.settles hSettles, ?_⟩
          rw [hSettles.heap.key? hStands.holds]
          exact hKey
      | resolved site key route =>
          rcases hSound with ⟨hStands, hKey, hRoute⟩
          refine ⟨hStands.settles hSettles, ?_, ?_⟩
          · rw [hSettles.heap.key? hStands.holds]
            exact hKey
          · rw [hSettles.heap.route hStands.holds hKey]
            exact hRoute
      | routed site route =>
          rcases hSound with ⟨hStands, hGeneric | ⟨key, hKey, hRoute⟩⟩
          · exact ⟨hStands.settles hSettles, Or.inl hGeneric⟩
          · refine ⟨hStands.settles hSettles, Or.inr ⟨key, ?_, ?_⟩⟩
            · rw [hSettles.heap.key? hStands.holds]
              exact hKey
            · rw [hSettles.heap.route hStands.holds hKey]
              exact hRoute

------------------------------------------------------------
-- Steps Of Calls
------------------------------------------------------------

/- A call by name leaves classes and sites as they are. -/
theorem Machine.Alike.settles_landing
    {m n m' : Machine}
    (hAlike : m.Alike n)
    {receiver : Value}
    {name : String}
    {args : List Value}
    (hEnd :
      m'.Alike
        (landing (fun run => invokeMethod run receiver name args)
          n).2) :
    m.world.Settles m'.world := by
  have hVerdict :=
    landing_of_agree
      (fun run => invokeMethod run receiver name args)
      (invokeMethod_verdict hAlike.right receiver name args)
  have hOutline := hEnd.outline.trans hVerdict.2.outline
  constructor
  · apply Heap.Settles.of_bare_eq
    exact (congrArg Outline.heap hOutline).trans hAlike.bare.symm
  · exact (congrArg Outline.sites hOutline).trans
      (congrArg Outline.sites hAlike.outline).symm

/-
  A step of a call through a site, beside a machine on which the
  call is made by name: either the step does not show, or both
  land, at one body or with one fault.
-/
def Headway.Follows
    (m n : Machine)
    (dispatch : Dispatch) : Headway → Prop
  | .waits phase m' =>
    m'.Alike n ∧ m.world.Settles m'.world ∧
      phase.Sound m'.world dispatch
  | .lands ending =>
    ∃ ending',
      Phase.ready.advanceByName dispatch n = .lands ending' ∧
        ending.1 = ending'.1 ∧ ending.2.Alike ending'.2 ∧
        m.world.Settles ending.2.world

namespace Phase

variable {m n : Machine}

/- A step that does not show. -/
theorem follows_of_yields
    (hAlike : m.Alike n)
    {dispatch : Dispatch}
    {m' : Machine}
    (hAfter : m'.Alike m)
    {phase : Phase}
    (hSound : phase.Sound m.world dispatch) :
    Headway.Follows m n dispatch (.waits phase m') :=
  ⟨hAfter.trans hAlike, hAfter.settles,
    hSound.settles hAfter.settles⟩

/- A call that lands where the call by name lands. -/
theorem follows_of_agree
    (hAlike : m.Alike n)
    {dispatch : Dispatch}
    {receiver : Value}
    {name : String}
    {args : List Value}
    (hByName :
      Phase.ready.advanceByName dispatch n =
        .lands
          (landing
            (fun run => invokeMethod run receiver name args) n))
    {call : Runner → Action Value}
    (hAgree :
      Agree ((call .arrive).run m)
        ((invokeMethod .arrive receiver name args).run n)) :
    Headway.Follows m n dispatch (.lands (landing call m)) := by
  have hLanding :=
    landing_agree call
      (fun run => invokeMethod run receiver name args) hAgree
  exact ⟨_, hByName, hLanding.1, hLanding.2,
    hAlike.settles_landing hLanding.2⟩

theorem advanceByName_site
    {id : SiteId}
    {site : Site}
    (hSite : n.world.sites[id]?.map Site.name = some site.name)
    (receiver : Value)
    (args : List Value) :
    Phase.ready.advanceByName (.site id receiver args) n =
      .lands
        (landing
          (fun run => invokeMethod run receiver site.name args)
          n) := by
  rcases Option.map_eq_some_iff.mp hSite with ⟨other, hOther, hName⟩
  simp only [advanceByName, hOther, hName]

/- The first step of a call through a site. -/
theorem ready_follows
    (hAlike : m.Alike n)
    {id : SiteId}
    {receiver : Value}
    {args : List Value}
    (hHolds : m.world.heap.Holds receiver) :
    Headway.Follows m n (.site id receiver args)
      (ready.advance (.site id receiver args) m) := by
  have hMachine := hAlike.left
  simp only [advance]
  cases hSite : m.world.sites[id]? with
  | none =>
      refine ⟨(_, n), ?_, rfl, hAlike,
        (Machine.Alike.refl hMachine).settles⟩
      simp only [advanceByName, hAlike.site_none hSite]
  | some site =>
      have hStands : site.Stands m.world id receiver :=
        ⟨hHolds, by rw [hSite]; rfl⟩
      dsimp only
      cases hKey : site.key? m.world.heap receiver with
      | none =>
          have hCold :
              Action.Yields
                (Action.modifyWorld fun world =>
                  world.modifySite id SiteState.coldCall)
                m () := by
            apply Action.Yields.modifySite hMachine
            intro other _ entry hMem
            exact Or.inl hMem
          rcases hCold with ⟨m', hRun, hAfter⟩
          cases hRun
          exact follows_of_yields hAlike hAfter
            ⟨hStands, Or.inl rfl⟩
      | some key =>
          have hFound : m.world.heap.key? receiver = some key := by
            unfold Site.key? at hKey
            split at hKey
            next => exact hKey
            next => cases hKey
          rcases Action.Yields.accessSite hMachine hSite key with
            ⟨m', hRun, hAfter⟩
          simp only [hRun]
          cases hLookup : (site.state.lookup key).1 with
          | none =>
              exact follows_of_yields hAlike hAfter
                ⟨hStands, hFound⟩
          | some route =>
              have hRoute :=
                (hMachine.sites id site hSite).route_lookup
                  (Heap.version_of_key? hFound) hLookup
              exact follows_of_yields hAlike hAfter
                ⟨hStands, Or.inr ⟨key, hFound, hRoute⟩⟩

/- A step of a call beside the call by name. -/
theorem advance_follows
    (hAlike : m.Alike n)
    {dispatch : Dispatch}
    {phase : Phase}
    (hSound : phase.Sound m.world dispatch)
    (hHolds :
      phase = .ready → m.world.heap.Holds dispatch.receiver) :
    Headway.Follows m n dispatch (phase.advance dispatch m) := by
  have hMachine := hAlike.left
  cases dispatch with
  | method receiver name args =>
      exact follows_of_agree hAlike rfl
        (Action.Similar.invokeMethod Runner.steady_arrive receiver
          name args m n hAlike)
  | site id receiver args =>
      cases phase with
      | ready => exact ready_follows hAlike (hHolds rfl)
      | missed site key =>
          rcases hSound with ⟨hStands, hKey⟩
          rcases Action.Yields.resolveMiss hMachine site hKey with
            ⟨m', hRun, hAfter⟩
          simp only [advance, hRun]
          exact follows_of_yields hAlike hAfter
            ⟨hStands, hKey, rfl⟩
      | resolved site key route =>
          rcases hSound with ⟨hStands, hKey, hRoute⟩
          have hInsert :
              Action.Yields
                (Action.modifyWorld fun world =>
                  world.modifySite id fun state =>
                    state.insert ⟨key, route⟩)
                m () := by
            apply Action.Yields.modifySite hMachine
            intro other hOther entry hMem
            rcases SiteState.mem_insert hMem with hNew | hOld
            · have hName : other.name = site.name := by
                have hSame := hStands.name
                rw [hOther] at hSame
                exact Option.some.inj hSame
              rw [hName, hNew, hRoute]
              exact Or.inr
                ((Machine.Alike.refl hMachine).fits_route
                  (Heap.version_of_key? hKey) site.name)
            · exact Or.inl hOld
          rcases hInsert with ⟨m', hRun, hAfter⟩
          cases hRun
          exact follows_of_yields hAlike hAfter
            ⟨hStands, Or.inr ⟨key, hKey, hRoute⟩⟩
      | routed site route =>
          rcases hSound with ⟨hStands, hLeads⟩
          have hSite :
              n.world.sites[id]?.map Site.name =
                some site.name := by
            rw [← hAlike.sites id]
            exact hStands.name
          apply follows_of_agree hAlike
            (advanceByName_site hSite receiver args)
          rcases hLeads with rfl | ⟨key, hKey, rfl⟩
          · exact Action.Similar.invokeMethod Runner.steady_arrive
              receiver site.name args m n hAlike
          · rw [(hAlike.sameLayout key.cls).route]
            exact take_agree Runner.steady_arrive hAlike
              (hAlike.key?.symm.trans hKey) site.name args

/-
  Where a call lands, the call by name on the very machine leads to
  the same body or ends in the same fault.
-/
theorem lands_by_name
    (hMachine : m.Coherent)
    {dispatch : Dispatch}
    {phase : Phase}
    (hSound : phase.Sound m.world dispatch)
    {ending : Except Fault Callable × Machine}
    (hLands : phase.advance dispatch m = .lands ending) :
    ∃ ending',
      Phase.ready.advanceByName dispatch m = .lands ending' ∧
        ending.1 = ending'.1 := by
  have hAlike := Machine.Alike.refl hMachine
  by_cases hFirst : phase = .ready
  · subst hFirst
    cases dispatch with
    | method receiver name args => exact ⟨ending, hLands, rfl⟩
    | site id receiver args =>
        -- A first step that lands finds no site.
        simp only [advance] at hLands
        split at hLands
        next hNone =>
          refine ⟨ending, ?_, rfl⟩
          simp only [advanceByName, hNone]
          exact hLands
        next site _ =>
          split at hLands
          next => cases hLands
          next key _ =>
            rcases run_accessSite id site key m with ⟨m', hRun, _⟩
            rw [hRun] at hLands
            cases hRoute :
                (site.state.access site.tuning key).1.route <;>
              rw [hRoute] at hLands <;> cases hLands
  · have hFollows :=
      advance_follows hAlike hSound fun hReady =>
        absurd hReady hFirst
    rw [hLands] at hFollows
    rcases hFollows with ⟨ending', hByName, hSame, _⟩
    exact ⟨ending', hByName, hSame⟩

end Phase

------------------------------------------------------------
-- Threads Side By Side
------------------------------------------------------------

/- All that a thread does, and goes on to do, is discreet. -/
def Thread.Discreet
    (t : Thread) : Prop :=
  t.now.Discreet ∧
    ∀ frame ∈ t.frames, ∀ result, (frame.next result).Discreet

/- What a thread has found out about its call is right. -/
def Thread.Sound
    (world : World)
    (t : Thread) : Prop :=
  ∀ bodies dispatch next,
    t.now = .call bodies dispatch next →
      t.phase.Sound world dispatch

theorem Phase.sound_ready
    (world : World)
    (dispatch : Dispatch) :
    Phase.ready.Sound world dispatch := by
  cases dispatch <;> trivial

theorem Thread.sound_ready
    (world : World)
    (context : Context)
    (frames : List Activation)
    (now : Routine) :
    Thread.Sound world ⟨context, frames, .ready, now⟩ :=
  fun _ dispatch _ _ => Phase.sound_ready world dispatch

/- A thread that goes through sites beside one that goes by name. -/
structure Thread.Matches
    (world world' : World)
    (t u : Thread) : Prop where
  alike : Machine.Alike ⟨world, t.context⟩ ⟨world', u.context⟩
  frames : t.frames = u.frames
  now : t.now = u.now
  ready : u.phase = .ready
  sound : t.Sound world
  discreet : t.Discreet

/- The worlds of some machines, in the contexts of others. -/
theorem Machine.Alike.withWorlds
    {m n m' n' : Machine}
    (hAlike : m.Alike n)
    (hWorlds : m'.Alike n') :
    Machine.Alike ⟨m'.world, m.context⟩ ⟨n'.world, n.context⟩ := by
  refine ⟨⟨hWorlds.left.heap, hWorlds.left.sites⟩,
    ⟨hWorlds.right.heap, hWorlds.right.sites⟩, ?_⟩
  have hWorld := hWorlds.outline
  have hContext := hAlike.outline
  simp only [Machine.outline, Outline.mk.injEq]
    at hWorld hContext ⊢
  exact ⟨hWorld.1, hWorld.2.1, hWorld.2.2.1, hWorld.2.2.2.1,
    hContext.2.2.2.2⟩

/- Steps of others leave a thread beside its like. -/
theorem Thread.Matches.elsewhere
    {world world' : World}
    {t u : Thread}
    (hMatches : t.Matches world world' u)
    {m n : Machine}
    (hAlike : m.Alike n)
    (hSettles : world.Settles m.world) :
    t.Matches m.world n.world u :=
  { hMatches with
    alike := hMatches.alike.withWorlds hAlike
    sound := fun bodies dispatch next hNow =>
      (hMatches.sound bodies dispatch next hNow).settles hSettles }

/- Threads side by side, with the same answers. -/
structure Pool.Matches
    (s n : Pool) : Prop where
  answers : s.answers = n.answers
  threads :
    ∀ j : Nat,
      Option.Rel (Thread.Matches s.world n.world) s.threads[j]?
        n.threads[j]?

/-
  Any call that is about to land does so where the call by name
  would on the very machine: for its receiver, its arguments and
  the caller of its thread.
-/
def Pool.LandsByName
    (s : Pool) : Prop :=
  ∀ (j : Nat) (t : Thread),
    s.threads[j]? = some t →
      ∀ bodies dispatch next ending,
        t.now = .call bodies dispatch next →
        t.phase.advance dispatch ⟨s.world, t.context⟩ =
          .lands ending →
        ∃ ending',
          Phase.ready.advanceByName dispatch ⟨s.world, t.context⟩ =
              .lands ending' ∧
            ending.1 = ending'.1

theorem Pool.Matches.landsByName
    {s n : Pool}
    (hMatches : s.Matches n) :
    s.LandsByName := by
  intro j t hThread bodies dispatch next ending hNow hLands
  have hThreads := hMatches.threads j
  rw [hThread] at hThreads
  generalize n.threads[j]? = other at hThreads
  cases hThreads with
  | some hMatch =>
      exact Phase.lands_by_name hMatch.alike.left
        (hMatch.sound bodies dispatch next hNow) hLands

/- Deeds that change no class. -/
theorem Deed.settles
    {α : Type}
    (deed : Deed α)
    {m : Machine}
    (hMachine : m.Coherent)
    (hStill :
      ∀ step, deed.step? = some step →
        ∀ cls, ¬ step.Mutates m.world.heap cls) :
    m.world.Settles (deed.action.run m).2.world where
  sites := by rw [deed.sites]
  heap := by
    cases deed with
    | change step => exact hMachine.heap.settles_step (hStill step rfl)
    | slotTable cls =>
        exact .of_bare_eq (m.world.heap.bare_slotTable cls)
    | resolve cls name =>
        exact .of_bare_eq (m.world.heap.bare_resolve cls name)
    | observe | setCaller | log | resolveStatic | canAccess =>
        exact .of_bare_eq rfl

namespace Pool.Matches

variable {s n s' n' : Pool} {j : Nat} {t u t' u' : Thread}

/- A step of one thread on either side. -/
theorem update
    (hMatches : s.Matches n)
    (hAnswers : s'.answers = n'.answers)
    (hSettles : s.world.Settles s'.world)
    (hThread : s'.threads[j]? = some t')
    (hThread' : n'.threads[j]? = some u')
    (hMatch : t'.Matches s'.world n'.world u')
    (hOthers :
      ∀ k, k ≠ j →
        s'.threads[k]? = s.threads[k]? ∧
          n'.threads[k]? = n.threads[k]?) :
    s'.Matches n' := by
  refine ⟨hAnswers, ?_⟩
  intro k
  by_cases hSame : k = j
  · subst hSame
    rw [hThread, hThread']
    exact .some hMatch
  · rw [(hOthers k hSame).1, (hOthers k hSame).2]
    have hOld := hMatches.threads k
    generalize s.threads[k]? = a at hOld ⊢
    generalize n.threads[k]? = b at hOld ⊢
    cases hOld with
    | none => exact .none
    | some hOld =>
        exact .some (hOld.elsewhere hMatch.alike hSettles)

/- Both threads take a step. -/
theorem update_both
    (hMatches : s.Matches n)
    (hKnown : s.threads[j]? = some t)
    (hKnown' : n.threads[j]? = some u)
    (hAnswers : s'.answers = n'.answers)
    (hSettles : s.world.Settles s'.world)
    (hThreads : s'.threads = s.threads.set j t')
    (hThreads' : n'.threads = n.threads.set j u')
    (hMatch : t'.Matches s'.world n'.world u') :
    s'.Matches n' := by
  rcases List.getElem?_eq_some_iff.mp hKnown with ⟨hPlace, _⟩
  rcases List.getElem?_eq_some_iff.mp hKnown' with ⟨hPlace', _⟩
  apply hMatches.update hAnswers hSettles _ _ hMatch
  · intro k hOther
    rw [hThreads, hThreads', List.getElem?_set_ne (Ne.symm hOther),
      List.getElem?_set_ne (Ne.symm hOther)]
    exact ⟨rfl, rfl⟩
  · rw [hThreads, List.getElem?_set_self hPlace]
  · rw [hThreads', List.getElem?_set_self hPlace']

/- The thread that goes by name waits. -/
theorem update_one
    (hMatches : s.Matches n)
    (hKnown : s.threads[j]? = some t)
    (hKnown' : n.threads[j]? = some u)
    (hAnswers : s'.answers = s.answers)
    (hSettles : s.world.Settles s'.world)
    (hThreads : s'.threads = s.threads.set j t')
    (hMatch : t'.Matches s'.world n.world u) :
    s'.Matches n := by
  rcases List.getElem?_eq_some_iff.mp hKnown with ⟨hPlace, _⟩
  apply hMatches.update (hAnswers.trans hMatches.answers) hSettles _
    hKnown' hMatch
  · intro k hOther
    rw [hThreads, List.getElem?_set_ne (Ne.symm hOther)]
    exact ⟨rfl, rfl⟩
  · rw [hThreads, List.getElem?_set_self hPlace]

/- What a step records, for a thread of a pool. -/
theorem step_of_known
    (advance : Advance)
    (hKnown : s.threads[j]? = some t) :
    s.step advance j = s.stepThread advance j t := by
  unfold Pool.step
  rw [hKnown]

/- A thread does something on its own. -/
theorem stepThread_deed
    (hMatches : s.Matches n)
    (hKnown : s.threads[j]? = some t)
    (hKnown' : n.threads[j]? = some u)
    (hMatch : t.Matches s.world n.world u)
    {α : Type}
    {d : Deed α}
    {next : α → Routine}
    (hNow : t.now = .deed d next)
    (hStill :
      ∀ step, d.step? = some step →
        ∀ cls, ¬ step.Mutates s.world.heap cls) :
    (s.stepThread Phase.advance j t).Matches
      (n.stepThread Phase.advanceByName j u) := by
  have hAlike := hMatch.alike
  have hDiscreet := hMatch.discreet
  rcases t with ⟨context, frames, phase, now⟩
  rcases u with ⟨context', frames', phase', now'⟩
  cases hMatch.frames
  cases hMatch.now
  cases hNow
  have hNative : d.action.Native true :=
    d.native_action fun _ => hDiscreet.1.1
  have hAgree := hNative.similar _ _ hAlike
  have hSettles := d.settles hAlike.left hStill
  rcases d.exists_value ⟨s.world, context⟩ with ⟨value, m, hRun⟩
  rcases d.exists_value ⟨n.world, context'⟩ with
    ⟨value', m', hRun'⟩
  simp only [Pool.stepThread, hRun, hRun']
  rw [hRun] at hSettles hAgree
  rw [hRun'] at hAgree
  cases hAgree.result
  apply hMatches.update_both hKnown hKnown' _ hSettles
    (threads_goOn_of (s.threads_changing d.step?) j _ m)
    (threads_goOn_of (n.threads_changing d.step?) j _ m')
  · exact ⟨hAgree.machine, rfl, rfl, rfl,
      Thread.sound_ready _ _ _ _, hDiscreet.1.2 value, hDiscreet.2⟩
  · cases d.step? <;> exact hMatches.answers

/- A call takes a step at its site, or lands as the one by name. -/
theorem stepThread_call
    (hMatches : s.Matches n)
    (hKnown : s.threads[j]? = some t)
    (hKnown' : n.threads[j]? = some u)
    (hMatch : t.Matches s.world n.world u)
    {bodies : Bodies}
    {dispatch : Dispatch}
    {next : Except Fault Value → Routine}
    (hNow : t.now = .call bodies dispatch next)
    (hHolds :
      t.phase = .ready →
        s.world.heap.Holds dispatch.receiver) :
    (s.stepThread Phase.advance j t).Matches n ∨
      (s.stepThread Phase.advance j t).Matches
        (n.stepThread Phase.advanceByName j u) := by
  have hFollows :=
    Phase.advance_follows hMatch.alike
      (hMatch.sound bodies dispatch next hNow) hHolds
  have hCaller : t.context.caller = u.context.caller :=
    hMatch.alike.caller
  have hDiscreet := hMatch.discreet
  rcases t with ⟨context, frames, phase, now⟩
  rcases u with ⟨context', frames', phase', now'⟩
  cases hMatch.frames
  cases hMatch.now
  cases hMatch.ready
  cases hNow
  simp only [Pool.stepThread]
  rcases hAdvance :
      phase.advance dispatch ⟨s.world, context⟩ with
    ⟨phase', m⟩ | ⟨ending, m⟩
  · rw [hAdvance] at hFollows
    rcases hFollows with ⟨hAfter, hSettles, hSound⟩
    refine Or.inl (hMatches.update_one hKnown hKnown' rfl hSettles
      rfl ?_)
    refine ⟨hAfter, rfl, rfl, rfl, ?_, hDiscreet⟩
    intro bodies' dispatch' next' hNow
    cases hNow
    exact hSound
  · rw [hAdvance] at hFollows
    rcases hFollows with
      ⟨⟨ending', m'⟩, hByName, hEnding, hAfter, hSettles⟩
    cases hEnding
    rw [hByName]
    cases ending with
    | error fault =>
        refine Or.inr (hMatches.update_both hKnown hKnown' ?_
          hSettles rfl rfl ?_)
        · show _ :: s.answers = _ :: n.answers
          rw [hCaller, hMatches.answers]
        · exact ⟨hAfter, rfl, rfl, rfl,
            Thread.sound_ready _ _ _ _, hDiscreet.1.2 _,
            hDiscreet.2⟩
    | ok body =>
        refine Or.inr (hMatches.update_both hKnown hKnown'
          hMatches.answers hSettles rfl rfl ?_)
        refine ⟨hAfter, ?_, rfl, rfl,
          Thread.sound_ready _ _ _ _, hDiscreet.1.1 _ _ _, ?_⟩
        · show _ :: frames = _ :: frames
          rw [hCaller]
        · intro frame hMem
          rcases List.mem_cons.mp hMem with rfl | hOld
          · exact hDiscreet.1.2
          · exact hDiscreet.2 frame hOld

/- A body is done, and returns to its caller. -/
theorem stepThread_done
    (hMatches : s.Matches n)
    (hKnown : s.threads[j]? = some t)
    (hKnown' : n.threads[j]? = some u)
    (hMatch : t.Matches s.world n.world u)
    {result : Except Fault Value}
    (hNow : t.now = .done result) :
    (s.stepThread Phase.advance j t).Matches
      (n.stepThread Phase.advanceByName j u) := by
  have hAlike := hMatch.alike
  have hDiscreet := hMatch.discreet
  rcases t with ⟨context, frames, phase, now⟩
  rcases u with ⟨context', frames', phase', now'⟩
  cases hMatch.frames
  cases hMatch.now
  cases hNow
  cases frames with
  | nil => exact hMatches
  | cons frame frames =>
      refine hMatches.update_both hKnown hKnown' ?_
        (Machine.Alike.refl hAlike.left).settles rfl rfl ?_
      · exact congrArg (List.cons _) hMatches.answers
      · refine ⟨hAlike, rfl, rfl, rfl,
          Thread.sound_ready _ _ _ _, ?_, ?_⟩
        · exact hDiscreet.2 frame List.mem_cons_self result
        · intro other hMem
          exact hDiscreet.2 other (List.mem_cons_of_mem _ hMem)

/- A step of a known thread. -/
theorem stepThread
    (hMatches : s.Matches n)
    (hKnown : s.threads[j]? = some t)
    (hKnown' : n.threads[j]? = some u)
    (hMatch : t.Matches s.world n.world u)
    (hHeld :
      ∀ start ∈ (s.stepThread Phase.advance j t).starts,
        start.call.machine.world.heap.Holds
          start.call.dispatch.receiver)
    (hStill :
      ∀ change ∈ (s.stepThread Phase.advance j t).changes,
        ∀ cls, ¬ change.step.Mutates change.heap cls) :
    (s.stepThread Phase.advance j t).Matches n ∨
      (s.stepThread Phase.advance j t).Matches
        (n.stepThread Phase.advanceByName j u) := by
  cases hNow : t.now with
  | done result =>
      exact Or.inr
        (hMatches.stepThread_done hKnown hKnown' hMatch hNow)
  | deed d next =>
      refine Or.inr
        (hMatches.stepThread_deed hKnown hKnown' hMatch hNow ?_)
      intro step hStep
      exact hStill ⟨s.world.heap, step⟩
        (mem_changes_stepThread Phase.advance s j hNow hStep)
  | call bodies dispatch next =>
      apply hMatches.stepThread_call hKnown hKnown' hMatch hNow
      intro hReady
      exact hHeld ⟨j, dispatch, s.world, t.context⟩
        (mem_starts_stepThread Phase.advance s j hNow hReady)

/-
  A step of a thread is matched by a step of the thread that goes
  by name, or by none, while no class changes and calls are made
  on values whose classes are there.
-/
theorem step
    (hMatches : s.Matches n)
    (j : Nat)
    (hHeld :
      ∀ start ∈ (s.step Phase.advance j).starts,
        start.call.machine.world.heap.Holds
          start.call.dispatch.receiver)
    (hStill :
      ∀ change ∈ (s.step Phase.advance j).changes,
        ∀ cls, ¬ change.step.Mutates change.heap cls) :
    (s.step Phase.advance j).Matches n ∨
      (s.step Phase.advance j).Matches
        (n.step Phase.advanceByName j) := by
  have hThreads := hMatches.threads j
  cases hKnown : s.threads[j]? with
  | none =>
      refine Or.inl ?_
      unfold Pool.step
      rw [hKnown]
      exact hMatches
  | some t =>
      rw [hKnown] at hThreads
      cases hKnown' : n.threads[j]? with
      | none =>
          rw [hKnown'] at hThreads
          cases hThreads
      | some u =>
          rw [hKnown'] at hThreads
          cases hThreads with
          | some hMatch =>
              rw [step_of_known _ hKnown] at hHeld hStill ⊢
              rw [step_of_known _ hKnown']
              exact hMatches.stepThread hKnown hKnown' hMatch hHeld
                hStill

end Pool.Matches

namespace Pool

/- Threads that start out are beside themselves. -/
theorem matches_self
    {s : Pool}
    (hCoherent :
      ∀ t ∈ s.threads, Machine.Coherent ⟨s.world, t.context⟩)
    (hReady : ∀ t ∈ s.threads, t.phase = .ready)
    (hDiscreet : ∀ t ∈ s.threads, t.Discreet) :
    s.Matches s := by
  refine ⟨rfl, ?_⟩
  intro j
  cases hThread : s.threads[j]? with
  | none => exact .none
  | some t =>
      have hMem := List.mem_of_getElem? hThread
      refine .some ⟨.refl (hCoherent t hMem), rfl, rfl,
        hReady t hMem, ?_, hDiscreet t hMem⟩
      intro bodies dispatch next _
      rw [hReady t hMem]
      exact Phase.sound_ready s.world dispatch

/-
  Threads that share sites get the answers of threads that call by
  name, in a schedule that leaves out the steps at the sites.
-/
theorem exists_matches_run
    {s n : Pool}
    (hMatches : s.Matches n)
    (schedule : List Nat)
    (hHeld :
      ∀ start ∈ (s.run Phase.advance schedule).starts,
        start.call.machine.world.heap.Holds
          start.call.dispatch.receiver)
    (hStill :
      ∀ change ∈ (s.run Phase.advance schedule).changes,
        ∀ cls, ¬ change.step.Mutates change.heap cls) :
    ∃ schedule',
      schedule'.Sublist schedule ∧
        (s.run Phase.advance schedule).Matches
          (n.run Phase.advanceByName schedule') := by
  induction schedule using List.reverseRecOn with
  | nil => exact ⟨[], .refl [], hMatches⟩
  | append_singleton schedule j ih =>
      rw [run_concat] at hHeld hStill ⊢
      have hSince :=
        continues_step Phase.advance (s.run Phase.advance schedule) j
      rcases ih
          (fun start hMem => hHeld start (hSince.starts hMem))
          (fun change hMem => hStill change (hSince.changes hMem))
        with ⟨schedule', hSub, hSoFar⟩
      rcases hSoFar.step j hHeld hStill with hWaits | hSteps
      · exact ⟨schedule', hSub.trans (List.sublist_append_left _ _),
          hWaits⟩
      · refine ⟨schedule' ++ [j], hSub.append (.refl [j]), ?_⟩
        rw [run_concat]
        exact hSteps

end Pool

end RegisterVM
