import RegisterVM.Effect
import RegisterVM.Object.Value

/-
  Frames: the typed slots of one call. Locals come first and the
  arguments after them. A slot has room for every representation
  of a value, and a tag that says which one is live; writing one
  representation leaves the others as they were.

  Key definitions include:
    * `SlotTag`
    * `Slot`
    * `Slot.value`
    * `Frame`
    * `Frame.store?`
    * `Frame.bindArgs`
    * `Frame.collect?`
-/

namespace RegisterVM

------------------------------------------------------------
-- Slots
------------------------------------------------------------

/- Which representation of a slot is live. -/
inductive SlotTag where
  | unknown
  | object
  | int
  | real
  | bool
  deriving DecidableEq, Repr, Inhabited

/- One slot with all its representations. -/
structure Slot where
  tag : SlotTag := .unknown
  object : Value := .nil
  int : Int64 := 0
  real : Binary64 := .zero
  bool : Bool := false
  deriving Repr, Inhabited

namespace Slot

/- Make an integer live. -/
def setInt
    (slot : Slot)
    (i : Int64) : Slot :=
  { slot with int := i, tag := .int }

/- Make a real live. -/
def setReal
    (slot : Slot)
    (r : Binary64) : Slot :=
  { slot with real := r, tag := .real }

/- Make a truth value live. -/
def setBool
    (slot : Slot)
    (b : Bool) : Slot :=
  { slot with bool := b, tag := .bool }

/- Make a boxed value live. -/
def setObject
    (slot : Slot)
    (v : Value) : Slot :=
  { slot with object := v, tag := .object }

/- Change the tag only. -/
def setTag
    (slot : Slot)
    (tag : SlotTag) : Slot :=
  { slot with tag }

/- Store a value in its natural representation. -/
def store
    (slot : Slot) : Value → Slot
  | .int i => slot.setInt i
  | .real r => slot.setReal r
  | .bool b => slot.setBool b
  | other => slot.setObject other

/- The live value. A slot of unknown content reads as nil. -/
def value
    (slot : Slot) : Value :=
  match slot.tag with
  | .unknown => .nil
  | .object => slot.object
  | .int => .int slot.int
  | .real => .real slot.real
  | .bool => .bool slot.bool

/- The integer of a slot, if it is live. -/
def int?
    (slot : Slot) : Option Int64 :=
  if slot.tag = .int then some slot.int else none

/- The real of a slot, if it is live. -/
def real?
    (slot : Slot) : Option Binary64 :=
  if slot.tag = .real then some slot.real else none

/- The truth value of a slot, if it is live. -/
def bool?
    (slot : Slot) : Option Bool :=
  if slot.tag = .bool then some slot.bool else none

/- The boxed value of a slot, if it is live. -/
def object?
    (slot : Slot) : Option Value :=
  if slot.tag = .object then some slot.object else none

end Slot

------------------------------------------------------------
-- Frames
------------------------------------------------------------

/- The slots of a call. -/
structure Frame where
  localCount : Nat
  argCount : Nat
  slots : Array Slot
  deriving Repr, Inhabited

/- Arguments of the wrong number. -/
structure ArgCountError where
  expected : Nat
  got : Nat
  deriving DecidableEq, Repr

/- The text of an argument fault. -/
def ArgCountError.message
    (e : ArgCountError) : String :=
  s!"expected {e.expected} arguments, got {e.got}"

namespace Frame

/- A frame with empty slots. -/
def new
    (localCount argCount : Nat) : Frame :=
  ⟨localCount, argCount, Array.replicate (localCount + argCount) {}⟩

/- The number of slots. -/
def slotCount
    (frame : Frame) : Nat :=
  frame.slots.size

/- The first argument slot. -/
def argBase
    (frame : Frame) : Nat :=
  frame.localCount

/- The slot of an argument. -/
def argSlot
    (frame : Frame)
    (i : Nat) : Nat :=
  frame.localCount + i

/- Change one slot. There is no result for a slot out of range. -/
def modify?
    (frame : Frame)
    (i : Nat)
    (change : Slot → Slot) : Option Frame :=
  if i < frame.slots.size then
    some { frame with slots := frame.slots.modify i change }
  else
    none

/- Store a value in one slot. -/
def store?
    (frame : Frame)
    (i : Nat)
    (v : Value) : Option Frame :=
  frame.modify? i fun slot => slot.store v

/- Empty one slot. -/
def clear?
    (frame : Frame)
    (i : Nat) : Option Frame :=
  frame.modify? i fun _ => {}

/- Empty every slot. -/
def clearAll
    (frame : Frame) : Frame :=
  { frame with slots := frame.slots.map fun _ => {} }

/- The live value of a slot. -/
def load?
    (frame : Frame)
    (i : Nat) : Option Value :=
  frame.slots[i]?.map Slot.value

/- Store values in consecutive slots. -/
def storeAll : Frame → (base : Nat) → List Value → Frame
  | frame, _, [] => frame
  | frame, base, v :: rest =>
    storeAll ((frame.store? base v).getD frame) (base + 1) rest

/-
  Write the arguments of a call into the argument slots. Too few
  or too many of them are refused.
-/
def bindArgs
    (args : List Value) : Effect Frame ArgCountError Unit := do
  let frame ← get
  unless args.length = frame.argCount do
    throw ⟨frame.argCount, args.length⟩
  set (frame.storeAll frame.argBase args)

/- A frame with the arguments of a call, unless they are refused. -/
def bind
    (frame : Frame)
    (args : List Value) : Except ArgCountError Frame :=
  match (bindArgs args).run frame with
  | (.ok (), bound) => .ok bound
  | (.error e, _) => .error e

/- The live values of consecutive slots. -/
def collect?
    (frame : Frame)
    (base count : Nat) : Option (List Value) :=
  (List.range count).mapM fun i => frame.load? (base + i)

/- The live values of all slots. -/
def values
    (frame : Frame) : List Value :=
  frame.slots.toList.map Slot.value

end Frame

end RegisterVM
