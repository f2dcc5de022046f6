import RegisterVM.Object.Value
import RegisterVM.Text.Quoted

/-
  Faults of calls.

  Key definitions include:
    * `DispatchError`
    * `DispatchError.text`
    * `Fault`
    * `Fault.message`
-/

namespace RegisterVM

------------------------------------------------------------
-- Dispatch
------------------------------------------------------------

/- Why a member cannot be called. -/
inductive DispatchError where
  | illegalAccess (visibility : Visibility) (owner member : String)
  | notFound (owner member : String)
  | abstractMember (owner member : String)
  deriving DecidableEq, Repr

namespace DispatchError

/- The name of the kind of an error. -/
def kind : DispatchError → String
  | illegalAccess .. => "IllegalAccess"
  | notFound .. | abstractMember .. => "MethodNotFound"

/- What an error says, without its kind. -/
def message : DispatchError → String
  | illegalAccess visibility owner member =>
    s!"cannot access {visibility.text} method '{member}' of {owner}"
  | notFound owner member =>
    s!"method '{member}' not found on {owner}"
  | abstractMember owner member =>
    s!"method '{member}' of {owner} is abstract"

/- The text of an error. -/
def text
    (e : DispatchError) : String :=
  s!"{e.kind}: {e.message}"

/- An error as a record with a quoted message. -/
def debug
    (e : DispatchError) : String :=
  e.kind ++ " \x7b message: " ++ Text.quote e.message ++ " \x7d"

end DispatchError

/- The owner named in errors about class-scope members. -/
def classScopeOwner
    (className : String) : String :=
  s!"class {className}"

------------------------------------------------------------
-- Faults
------------------------------------------------------------

/- What can be named in a body. -/
inductive Named where
  | inst
  | cls
  | func
  | site
  deriving DecidableEq, Repr

/- Why a call ends without a value. -/
inductive Fault where
  | dispatch (cause : DispatchError)
  /- A failure raised by a body. -/
  | failed (message : String)
  /- A countdown called with anything but one integer. -/
  | countdownArgs
  /- A countdown whose inner call yields no integer. -/
  | unexpected (text : String)
  /- A name that stands for nothing. -/
  | unbound (kind : Named) (name : String)
  /- The allowance of nested calls is used up. -/
  | exhausted
  deriving DecidableEq, Repr

/- The text of a fault. -/
def Fault.message : Fault → String
  | dispatch cause => cause.text
  | failed message => message
  | countdownArgs => "countdown expects one int"
  | unexpected text => s!"unexpected {text}"
  | unbound _ name => s!"nothing is named {name}"
  | exhausted => "calls are nested too deeply"

end RegisterVM
