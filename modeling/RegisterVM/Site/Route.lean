import RegisterVM.Object.Heap
import RegisterVM.Fault

/-
  Routes: dispatch decisions that a call site remembers, and the
  keys under which it remembers them.

  Key definitions include:
    * `Key`
    * `Heap.key?`
    * `Route`
    * `Route.kind`
-/

namespace RegisterVM

------------------------------------------------------------
-- Keys
------------------------------------------------------------

/-
  What a decision depends on: whether the receiver is a class
  itself or an instance, which class, and its layout version.
-/
structure Key where
  classScope : Bool
  cls : ClassId
  version : Nat
  deriving DecidableEq, Repr, Inhabited

/-
  The class half of a key as one number. The top bit of a 64-bit
  word separates a class from its instances.
-/
def Key.word
    (key : Key) : Nat :=
  key.cls + if key.classScope then 0x8000000000000000 else 0

/- The key of a receiver. Plain data has none. -/
def Heap.key?
    (heap : Heap) : Value → Option Key
  | .inst i => some ⟨false, i.cls, heap.version i.cls⟩
  | .cls c => some ⟨true, c, heap.version c⟩
  | _ => none

------------------------------------------------------------
-- Routes
------------------------------------------------------------

/- How a call reaches its body, decided once. -/
inductive Route where
  /- The member in a slot of a class. -/
  | slot (cls : ClassId) (index : Nat)
  /- A member without a slot, called after an access check. -/
  | direct (callable : Callable) (visibility : Visibility)
      (declaring : ClassId)
  /- A class-scope member. -/
  | classScope (callable : Callable)
  /- Nothing to remember: resolve every time. -/
  | generic
  /- Resolution failed for this layout. -/
  | failure (cause : DispatchError)
  deriving Repr, Inhabited

namespace Route

/- The word for the kind of a route. -/
def kind : Route → String
  | slot .. => "direct-slot"
  | direct .. => "direct-callable"
  | classScope _ => "class-scope"
  | generic => "fallback"
  | failure _ => "cached-error"

/- A route with its content. -/
def debug
    (heap : Heap) : Route → String
  | slot cls i => s!"DirectSlot({heap.className cls}#{i})"
  | direct callable visibility _ =>
    s!"DirectCallable({visibility.text} {callable.name})"
  | classScope callable => s!"ClassScope({callable.name})"
  | generic => "Fallback"
  | failure cause => s!"CachedError({cause.text})"

end Route

end RegisterVM
