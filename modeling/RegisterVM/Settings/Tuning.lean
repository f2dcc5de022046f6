import RegisterVM.Settings.Parser
import RegisterVM.Site.Tuning

/-
  Site tunings in settings files. Keys that are left out keep
  their defaults, and unknown keys are passed over.

  Key definitions include:
    * `Setting`
    * `Tuning.set`
    * `Tuning.ofToml?`
    * `SettingsError`
    * `Tuning.ofText`
-/

namespace RegisterVM

------------------------------------------------------------
-- Keys
------------------------------------------------------------

/- A value that a key of a tuning may have. -/
inductive Setting where
  | flag (b : Bool)
  | count (n : UInt32)
  deriving DecidableEq, Repr

namespace Tuning

/- The keys of a tuning with their values, in order. -/
def settings
    (t : Tuning) : List (String × Setting) :=
  [("enabled", .flag t.enabled),
   ("always_four", .flag t.alwaysFour),
   ("adaptive", .flag t.adaptive),
   ("windowed_demotion", .flag t.windowedDemotion),
   ("promote_after", .count t.promoteAfter),
   ("promote_miss_pct", .count t.promoteMissPct),
   ("window", .count t.window),
   ("demote_miss_pct", .count t.demoteMissPct),
   ("freeze_windows", .count t.freezeWindows),
   ("counter_cap", .count t.counterCap)]

/-
  Give a key a value. Unknown keys change nothing; a known key
  with a value of the wrong type has no result.
-/
def set?
    (t : Tuning)
    (key : String)
    (value : Option Setting) : Option Tuning :=
  match key, value with
  | "enabled", some (.flag b) => some { t with enabled := b }
  | "always_four", some (.flag b) => some { t with alwaysFour := b }
  | "adaptive", some (.flag b) => some { t with adaptive := b }
  | "windowed_demotion", some (.flag b) =>
    some { t with windowedDemotion := b }
  | "promote_after", some (.count n) => some { t with promoteAfter := n }
  | "promote_miss_pct", some (.count n) =>
    some { t with promoteMissPct := n }
  | "window", some (.count n) => some { t with window := n }
  | "demote_miss_pct", some (.count n) =>
    some { t with demoteMissPct := n }
  | "freeze_windows", some (.count n) =>
    some { t with freezeWindows := n }
  | "counter_cap", some (.count n) => some { t with counterCap := n }
  | other, _ =>
    if (t.settings.lookup other).isSome then none else some t

/- A count, if a number is in its range. -/
def count?
    (n : Int) : Option Setting :=
  if 0 ≤ n ∧ n.toNat < UInt32.size then
    some (.count (UInt32.ofNat n.toNat))
  else
    none

end Tuning

------------------------------------------------------------
-- Documents
------------------------------------------------------------

namespace Toml

/- The setting that a value stands for. -/
def Node.setting? : Node → Option Setting
  | .boolean b => some (.flag b)
  | .integer n => Tuning.count? n
  | _ => none

end Toml

/- The tuning of a document, if its keys have the right types. -/
def Tuning.ofToml?
    (entries : Toml.Entries) : Option Tuning :=
  entries.foldlM
    (fun t (key, node) => t.set? key node.setting?) {}

------------------------------------------------------------
-- Texts
------------------------------------------------------------

/- Why a settings text gives no tuning. -/
inductive SettingsError where
  /- Not a document, or a key of the wrong type. -/
  | form
  | tuning (cause : TuningError)
  deriving DecidableEq, Repr

/- The tuning that a settings text describes. -/
def Tuning.ofText
    (text : List Char) : Except SettingsError Tuning :=
  match (Toml.parse? text).bind Tuning.ofToml? with
  | none => .error .form
  | some t =>
    match t.check with
    | .error cause => .error (.tuning cause)
    | .ok () => .ok t

end RegisterVM
