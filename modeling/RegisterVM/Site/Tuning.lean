/-
  Tuning of call sites.

  Key definitions include:
    * `Tuning`
    * `Tuning.check`
    * `Tuning.adapts`
-/

namespace RegisterVM

/- How a call site caches dispatch decisions and adapts. -/
structure Tuning where
  /- Cache at all; otherwise every call resolves in full. -/
  enabled : Bool := true
  /- Use four entries from the start and never adapt. -/
  alwaysFour : Bool := false
  /- Grow from two to four entries under sustained misses. -/
  adaptive : Bool := true
  /- Shrink back when a whole window keeps missing. -/
  windowedDemotion : Bool := true
  /- Accesses before a promotion is considered. -/
  promoteAfter : UInt32 := 256
  /- Promote when misses exceed this share of accesses. -/
  promoteMissPct : UInt32 := 20
  /- Accesses in a demotion window. -/
  window : UInt32 := 256
  /- Demote when misses reach this share of a window. -/
  demoteMissPct : UInt32 := 25
  /- Windows after a demotion without a promotion. -/
  freezeWindows : UInt32 := 4
  /- Where the lifetime counters stop. -/
  counterCap : UInt32 := 1000000
  deriving DecidableEq, Repr, Inhabited

/- Why a tuning is refused. -/
inductive TuningError where
  | promoteAfter
  | window
  | percentage
  | counterCap (cap promoteAfter : UInt32)
  deriving DecidableEq, Repr

/- The text of a tuning fault. -/
def TuningError.message : TuningError → String
  | promoteAfter => "promote_after must be positive"
  | window => "window must be positive"
  | percentage => "miss percentages must be within 0..=100"
  | counterCap cap after =>
    s!"counter_cap ({cap}) below promote_after ({after})"

namespace Tuning

/- No caching: every call goes through full resolution. -/
def disabled : Tuning :=
  { enabled := false }

/- Accept a usable tuning, or report the first fault. -/
def check
    (t : Tuning) : Except TuningError Unit :=
  if t.promoteAfter = 0 then
    .error .promoteAfter
  else if t.window = 0 then
    .error .window
  else if 100 < t.promoteMissPct ∨ 100 < t.demoteMissPct then
    .error .percentage
  else if t.counterCap < t.promoteAfter then
    .error (.counterCap t.counterCap t.promoteAfter)
  else
    .ok ()

/- Whether the number of entries may change. -/
def adapts
    (t : Tuning) : Bool :=
  t.enabled && t.adaptive && !t.alwaysFour

end Tuning

end RegisterVM
