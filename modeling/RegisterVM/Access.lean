import RegisterVM.Object.Heap

/-
  Calling contexts and access rules. A context carries the class
  on whose behalf calls are made, the rule that decides who may
  call what, and counts of the work done.

  Key definitions include:
    * `Query`
    * `Policy`
    * `Policy.standard`
    * `Context`
    * `Context.ask`
-/

namespace RegisterVM

------------------------------------------------------------
-- Policies
------------------------------------------------------------

/- A question put to a policy. -/
structure Query where
  visibility : Visibility
  declaring : ClassId
  caller : Option ClassId
  member : String
  deriving DecidableEq, Repr

/-
  An access rule: a function of the visibility of a member, the
  class that declares it, the lineage of the calling class, and
  the name that was asked for.
-/
structure Policy where
  permits :
    Visibility → ClassId → Option (List ClassId) → String → Bool

namespace Policy

/-
  Public members are open to everyone, protected ones to the
  declaring class and its descendants, private ones to the
  declaring class only.
-/
def standard : Policy where
  permits visibility declaring caller _ :=
    match visibility with
    | .everyone => true
    | .descendants =>
      match caller with
      | some lineage => lineage.contains declaring
      | none => false
    | .owner =>
      match caller with
      | some lineage => lineage.head? == some declaring
      | none => false

/- Every call is allowed. -/
def allow : Policy where
  permits _ _ _ _ := true

/- No call is allowed. -/
def deny : Policy where
  permits _ _ _ _ := false

end Policy

instance : Inhabited Policy :=
  ⟨Policy.standard⟩

------------------------------------------------------------
-- Contexts
------------------------------------------------------------

/- Counts of dispatch work. -/
structure DispatchStats where
  /- Members looked up by name. -/
  resolutions : Nat := 0
  /- Questions put to the policy. -/
  accessChecks : Nat := 0
  deriving DecidableEq, Repr, Inhabited

/- The counts as a record. -/
def DispatchStats.debug
    (stats : DispatchStats) : String :=
  s!"DispatchStats \x7b resolutions: {stats.resolutions}, "
    ++ s!"access_checks: {stats.accessChecks} \x7d"

/- A calling context. Its queries are kept, latest first. -/
structure Context where
  caller : Option ClassId := none
  policy : Policy := Policy.standard
  stats : DispatchStats := {}
  queries : List Query := []
  deriving Inhabited

namespace Context

/- Count one lookup by name. -/
def countResolution
    (ctx : Context) : Context :=
  { ctx with
    stats := { ctx.stats with resolutions := ctx.stats.resolutions + 1 } }

/- Ask whether the caller may call a member. -/
def ask
    (ctx : Context)
    (heap : Heap)
    (visibility : Visibility)
    (declaring : ClassId)
    (member : String) : Bool × Context :=
  let answer :=
    ctx.policy.permits visibility declaring
      (ctx.caller.map heap.lineage) member
  (answer,
    { ctx with
      stats :=
        { ctx.stats with accessChecks := ctx.stats.accessChecks + 1 }
      queries :=
        ⟨visibility, declaring, ctx.caller, member⟩ :: ctx.queries })

/- A context without its policy. -/
def debug
    (ctx : Context)
    (heap : Heap) : String :=
  let caller :=
    match ctx.caller with
    | some c => "Some(" ++ Text.quote (heap.className c) ++ ")"
    | none => "None"
  s!"CallContext \x7b caller: {caller}, stats: "
    ++ ctx.stats.debug ++ " \x7d"

end Context

end RegisterVM
