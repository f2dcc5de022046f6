import Mathlib.Data.List.Induction
import RegisterVM.Frame

/-
  Writes to a frame. A slot keeps every representation that was
  ever written to it, but the tag alone says which one is read, so
  that it reads as one cell: what the last write to the slot left
  there. A write to one slot leaves the others as they are, with
  all their representations.

  Key definitions include:
    * `Cell`
    * `Reading`
    * `Cell.reading`
    * `FrameWrite`
    * `FrameWrite.leaves?`
    * `Frame.write?`
    * `lastWrite`

  Key theorems include:
    * `Slot.reading_put`
    * `Frame.getElem?_storeAll`
    * `Frame.Shaped.collect?_storeAll`
    * `Frame.Shaped.write`
    * `Frame.reads_last_write`
-/

namespace RegisterVM

------------------------------------------------------------
-- Cells
------------------------------------------------------------

/- One value with its tag. -/
inductive Cell where
  | empty
  | int (i : Int64)
  | real (r : Binary64)
  | bool (b : Bool)
  | object (v : Value)

/- The cell of a value in its natural representation. -/
def Cell.ofValue : Value → Cell
  | .int i => .int i
  | .real r => .real r
  | .bool b => .bool b
  | other => .object other

/-
  All that can be read from a slot: its tag, its live value, and
  what the reader of each representation yields.
-/
structure Reading where
  tag : SlotTag
  value : Value
  int : Option Int64 := none
  real : Option Binary64 := none
  bool : Option Bool := none
  object : Option Value := none

/- A cell is read under its own tag only; an empty one is nil. -/
def Cell.reading : Cell → Reading
  | empty => { tag := .unknown, value := .nil }
  | int i => { tag := .int, value := .int i, int := some i }
  | real r => { tag := .real, value := .real r, real := some r }
  | bool b => { tag := .bool, value := .bool b, bool := some b }
  | object v => { tag := .object, value := v, object := some v }

/- The natural representation of a value is read as the value. -/
theorem Cell.value_ofValue
    (v : Value) :
    (Cell.ofValue v).reading.value = v := by
  cases v <;> rfl

namespace Slot

/- All that can be read from a slot. -/
def reading
    (slot : Slot) : Reading :=
  ⟨slot.tag, slot.value, slot.int?, slot.real?, slot.bool?,
    slot.object?⟩

/- Make a representation live, or clear the slot. -/
def put
    (slot : Slot) : Cell → Slot
  | .empty => {}
  | .int i => slot.setInt i
  | .real r => slot.setReal r
  | .bool b => slot.setBool b
  | .object v => slot.setObject v

/- Whatever a slot has held, it reads as the cell put there. -/
theorem reading_put
    (slot : Slot)
    (cell : Cell) :
    (slot.put cell).reading = cell.reading := by
  cases cell <;> rfl

theorem store_eq_put
    (slot : Slot)
    (v : Value) :
    slot.store v = slot.put (Cell.ofValue v) := by
  cases v <;> rfl

end Slot

------------------------------------------------------------
-- Writes
------------------------------------------------------------

/- A change of the slots of a frame. -/
inductive FrameWrite where
  /- Write one representation of a slot, or clear the slot. -/
  | put (slot : Nat) (cell : Cell)
  /- Store a value in its natural representation. -/
  | store (slot : Nat) (v : Value)
  | clearAll
  | bind (args : List Value)

namespace FrameWrite

/- Whether the slot of a write is one of so many. -/
def Within
    (count : Nat) : FrameWrite → Prop
  | put slot _ | store slot _ => slot < count
  | clearAll | bind _ => True

instance
    (count : Nat)
    (write : FrameWrite) :
    Decidable (write.Within count) :=
  match write with
  | put slot _ => inferInstanceAs (Decidable (slot < count))
  | store slot _ => inferInstanceAs (Decidable (slot < count))
  | clearAll => inferInstanceAs (Decidable True)
  | bind _ => inferInstanceAs (Decidable True)

/- The argument that goes to a slot, if there is one. -/
def argument?
    (base : Nat)
    (args : List Value)
    (i : Nat) : Option Value :=
  if base ≤ i then args[i - base]? else none

/- What a write leaves in a slot, if it writes there. -/
def leaves?
    (localCount argCount i : Nat) : FrameWrite → Option Cell
  | put slot cell => if slot = i then some cell else none
  | store slot v => if slot = i then some (.ofValue v) else none
  | clearAll => some .empty
  | bind args =>
    if args.length = argCount then
      (argument? localCount args i).map Cell.ofValue
    else
      none

end FrameWrite

/- What the last write to a slot left there. -/
def lastWrite
    (localCount argCount : Nat)
    (writes : List FrameWrite)
    (i : Nat) : Cell :=
  (writes.reverse.findSome? (·.leaves? localCount argCount i)).getD
    .empty

theorem lastWrite_concat
    (localCount argCount : Nat)
    (writes : List FrameWrite)
    (write : FrameWrite)
    (i : Nat) :
    lastWrite localCount argCount (writes ++ [write]) i =
      (write.leaves? localCount argCount i).getD
        (lastWrite localCount argCount writes i) := by
  unfold lastWrite
  rw [List.reverse_append, List.reverse_singleton,
    List.singleton_append, List.findSome?_cons]
  cases write.leaves? localCount argCount i with
  | none => rfl
  | some cell => rfl

------------------------------------------------------------
-- Frames
------------------------------------------------------------

/- Results that are the entries of a list, in order, are the list. -/
theorem mapM_range
    {α : Type}
    {result? : Nat → Option α}
    {values : List α}
    (hResults : ∀ k < values.length, result? k = values[k]?) :
    (List.range values.length).mapM result? = some values := by
  induction values using List.reverseRecOn with
  | nil => rfl
  | append_singleton values last ih =>
      rw [List.length_append, List.length_singleton] at hResults ⊢
      have hBefore : ∀ k < values.length, result? k = values[k]? := by
        intro k hInside
        rw [hResults k (Nat.lt_succ_of_lt hInside),
          List.getElem?_append_left hInside]
      have hLast : result? values.length = some last := by
        rw [hResults _ (Nat.lt_succ_self _), List.getElem?_concat_length]
      rw [List.range_succ, List.mapM_append, ih hBefore]
      simp [hLast]

namespace Frame

/- All that can be read from a slot of a frame. -/
def read?
    (frame : Frame)
    (i : Nat) : Option Reading :=
  frame.slots[i]?.map Slot.reading

theorem load?_eq
    (frame : Frame)
    (i : Nat) :
    frame.load? i = (frame.read? i).map Reading.value := by
  rw [read?, Option.map_map]
  rfl

/-
  Perform one write. There is no result for a slot out of range.
  Binding arguments gives the frame that it leaves, whether they
  are accepted or refused.
-/
def write?
    (frame : Frame) : FrameWrite → Option Frame
  | .put slot .empty => frame.clear? slot
  | .put slot cell => frame.modify? slot (·.put cell)
  | .store slot v => frame.store? slot v
  | .clearAll => some frame.clearAll
  | .bind args => some ((bindArgs args).run frame).2

theorem write?_put
    (frame : Frame)
    (slot : Nat)
    (cell : Cell) :
    frame.write? (.put slot cell) =
      frame.modify? slot (·.put cell) := by
  cases cell <;> rfl

/- Perform writes in order. -/
def writeAll?
    (frame : Frame)
    (writes : List FrameWrite) : Option Frame :=
  writes.foldlM write? frame

/- A frame with given numbers of locals and arguments. -/
structure Shaped
    (frame : Frame)
    (localCount argCount : Nat) : Prop where
  locals : frame.localCount = localCount
  args : frame.argCount = argCount
  size : frame.slots.size = localCount + argCount

/-
  A frame after a write: a slot that was written reads as what the
  write leaves there, and another is as it was.
-/
structure Written
    (localCount argCount : Nat)
    (write : FrameWrite)
    (frame frame' : Frame) : Prop where
  shaped : frame'.Shaped localCount argCount
  left :
    ∀ i cell, i < localCount + argCount →
      write.leaves? localCount argCount i = some cell →
      frame'.read? i = some cell.reading
  others :
    ∀ i, write.leaves? localCount argCount i = none →
      frame'.slots[i]? = frame.slots[i]?

theorem shaped_new
    (localCount argCount : Nat) :
    (new localCount argCount).Shaped localCount argCount :=
  ⟨rfl, rfl, Array.size_replicate⟩

theorem modify?_of_inside
    {frame : Frame}
    {i : Nat}
    (hInside : i < frame.slots.size)
    (change : Slot → Slot) :
    frame.modify? i change =
      some { frame with slots := frame.slots.modify i change } :=
  if_pos hInside

theorem store?_eq_put
    (frame : Frame)
    (i : Nat)
    (v : Value) :
    frame.store? i v = frame.write? (.put i (.ofValue v)) := by
  rw [write?_put, store?]
  simp only [Slot.store_eq_put]

theorem getElem?_store
    (frame : Frame)
    (i : Nat)
    (v : Value)
    (j : Nat) :
    ((frame.store? i v).getD frame).slots[j]? =
      if i = j then frame.slots[j]?.map (·.store v)
      else frame.slots[j]? := by
  unfold store? modify?
  split
  next => exact Array.getElem?_modify
  next hPast =>
    split
    next hSame =>
      subst hSame
      have hNone : frame.slots[i]? = none :=
        Array.getElem?_eq_none_iff.mpr (Nat.not_lt.mp hPast)
      rw [Option.getD_none, hNone]
      rfl
    next => rfl

/- Values go to the slots from the base on, and nowhere else. -/
theorem getElem?_storeAll
    (frame : Frame)
    (base : Nat)
    (args : List Value)
    (i : Nat) :
    (frame.storeAll base args).slots[i]? =
      match FrameWrite.argument? base args i with
      | some v => frame.slots[i]?.map (·.store v)
      | none => frame.slots[i]? := by
  unfold FrameWrite.argument?
  induction args generalizing frame base with
  | nil =>
      rw [storeAll]
      simp
  | cons v rest ih =>
      rw [storeAll, ih, getElem?_store]
      rcases Nat.lt_trichotomy i base with hBefore | hHere | hAfter
      · rw [if_neg (by omega), if_neg (by omega), if_neg (by omega)]
      · subst hHere
        rw [if_neg (by omega), if_pos rfl, if_pos (Nat.le_refl i),
          Nat.sub_self]
        rfl
      · have hIndex : i - base = i - (base + 1) + 1 := by omega
        rw [if_pos (show base + 1 ≤ i by omega),
          if_neg (show base ≠ i by omega),
          if_pos (show base ≤ i by omega), hIndex,
          List.getElem?_cons_succ]

theorem shape_storeAll
    (frame : Frame)
    (base : Nat)
    (args : List Value) :
    (frame.storeAll base args).localCount = frame.localCount ∧
      (frame.storeAll base args).argCount = frame.argCount ∧
      (frame.storeAll base args).slots.size = frame.slots.size := by
  induction args generalizing frame base with
  | nil => exact ⟨rfl, rfl, rfl⟩
  | cons v rest ih =>
      rw [storeAll]
      rcases ih ((frame.store? base v).getD frame) (base + 1) with
        ⟨hLocals, hArgs, hSize⟩
      rw [hLocals, hArgs, hSize]
      unfold store? modify?
      split
      next => exact ⟨rfl, rfl, Array.size_modify⟩
      next => exact ⟨rfl, rfl, rfl⟩

/-
  Arguments of the right number are stored, and others are refused
  before the first of them is stored.
-/
theorem run_bindArgs
    (args : List Value)
    (frame : Frame) :
    (bindArgs args).run frame =
      if args.length = frame.argCount then
        (.ok (), frame.storeAll frame.argBase args)
      else
        (.error ⟨frame.argCount, args.length⟩, frame) := by
  unfold bindArgs
  rw [Effect.run_get_bind]
  dsimp only
  split <;> rfl

namespace Shaped

variable {frame : Frame} {localCount argCount : Nat}

/- Arguments are bound, or they are refused and the frame stays. -/
theorem bindArgs_cases
    (hShaped : frame.Shaped localCount argCount)
    (args : List Value) :
    (args.length = argCount ∧
        (bindArgs args).run frame =
          (.ok (), frame.storeAll localCount args)) ∨
      (args.length ≠ argCount ∧
        (bindArgs args).run frame =
          (.error ⟨argCount, args.length⟩, frame)) := by
  rw [run_bindArgs, argBase, hShaped.args, hShaped.locals]
  by_cases hLength : args.length = argCount
  · exact Or.inl ⟨hLength, if_pos hLength⟩
  · exact Or.inr ⟨hLength, if_neg hLength⟩

/- A slot that is put to reads as the cell, and the others stay. -/
theorem put
    (hShaped : frame.Shaped localCount argCount)
    {slot : Nat}
    (hInside : slot < localCount + argCount)
    (cell : Cell) :
    ∃ frame', frame.write? (.put slot cell) = some frame' ∧
      Written localCount argCount (.put slot cell) frame frame' := by
  have hSlot : slot < frame.slots.size := by
    rwa [hShaped.size]
  rw [write?_put, modify?_of_inside hSlot]
  refine ⟨_, rfl, ?_, ?_, ?_⟩
  · exact ⟨hShaped.locals, hShaped.args,
      Array.size_modify.trans hShaped.size⟩
  · intro i cell' _ hLeaves
    rw [FrameWrite.leaves?] at hLeaves
    split at hLeaves
    next hSame =>
      cases hLeaves
      subst hSame
      rw [read?, Array.getElem?_modify, if_pos rfl,
        Array.getElem?_eq_getElem hSlot]
      exact congrArg some (Slot.reading_put _ cell)
    next => cases hLeaves
  · intro i hLeaves
    rw [FrameWrite.leaves?] at hLeaves
    split at hLeaves
    next => cases hLeaves
    next hOther => rw [Array.getElem?_modify, if_neg hOther]

theorem clearAll
    (hShaped : frame.Shaped localCount argCount) :
    Written localCount argCount .clearAll frame frame.clearAll := by
  refine ⟨?_, ?_, nofun⟩
  · exact ⟨hShaped.locals, hShaped.args,
      Array.size_map.trans hShaped.size⟩
  · intro i cell hInside hLeaves
    cases hLeaves
    have hSlot : i < frame.slots.size := by
      rwa [hShaped.size]
    rw [read?, Frame.clearAll, Array.getElem?_map,
      Array.getElem?_eq_getElem hSlot]
    rfl

/- Bound arguments are in their slots, and the locals stay. -/
theorem storeAll
    (hShaped : frame.Shaped localCount argCount)
    {args : List Value}
    (hLength : args.length = argCount) :
    Written localCount argCount (.bind args) frame
      (frame.storeAll localCount args) := by
  have hSlots := frame.getElem?_storeAll localCount args
  refine ⟨?_, ?_, ?_⟩
  · rcases frame.shape_storeAll localCount args with
      ⟨hLocals, hArgs, hSize⟩
    exact ⟨hLocals.trans hShaped.locals, hArgs.trans hShaped.args,
      hSize.trans hShaped.size⟩
  · intro i cell hInside hLeaves
    rw [FrameWrite.leaves?, if_pos hLength] at hLeaves
    rcases Option.map_eq_some_iff.mp hLeaves with
      ⟨v, hArgument, rfl⟩
    have hSlot : i < frame.slots.size := by
      rwa [hShaped.size]
    rw [read?, hSlots, hArgument, Array.getElem?_eq_getElem hSlot]
    dsimp only [Option.map_some]
    rw [Slot.store_eq_put, Slot.reading_put]
  · intro i hLeaves
    rw [FrameWrite.leaves?, if_pos hLength] at hLeaves
    rw [hSlots, Option.map_eq_none_iff.mp hLeaves]

/- Bound arguments are collected as they were given. -/
theorem collect?_storeAll
    (hShaped : frame.Shaped localCount argCount)
    {args : List Value}
    (hLength : args.length = argCount) :
    (frame.storeAll localCount args).collect? localCount argCount =
      some args := by
  subst hLength
  apply mapM_range
  intro k hInside
  have hArgument :
      (FrameWrite.bind args).leaves? localCount args.length
          (localCount + k) =
        some (.ofValue args[k]) := by
    rw [FrameWrite.leaves?, if_pos rfl, FrameWrite.argument?,
      if_pos (Nat.le_add_right _ _), Nat.add_sub_cancel_left,
      List.getElem?_eq_getElem hInside]
    rfl
  have hRead :=
    (hShaped.storeAll rfl).left _ _ (by omega) hArgument
  rw [load?_eq, hRead, List.getElem?_eq_getElem hInside]
  exact congrArg some (Cell.value_ofValue _)

/- A write within range is performed. -/
theorem write
    (hShaped : frame.Shaped localCount argCount)
    {write : FrameWrite}
    (hWithin : write.Within (localCount + argCount)) :
    ∃ frame', frame.write? write = some frame' ∧
      Written localCount argCount write frame frame' := by
  cases write with
  | put slot cell => exact hShaped.put hWithin cell
  | store slot v =>
      rcases hShaped.put hWithin (.ofValue v) with
        ⟨frame', hWrite, hWritten⟩
      exact ⟨frame', (frame.store?_eq_put slot v).trans hWrite,
        hWritten.shaped, hWritten.left, hWritten.others⟩
  | clearAll => exact ⟨_, rfl, hShaped.clearAll⟩
  | bind args =>
      rw [write?]
      rcases hShaped.bindArgs_cases args with
        ⟨hLength, hBind⟩ | ⟨hLength, hBind⟩
      · rw [hBind]
        exact ⟨_, rfl, hShaped.storeAll hLength⟩
      · rw [hBind]
        refine ⟨frame, rfl, hShaped, ?_, fun _ _ => rfl⟩
        intro i cell _ hLeaves
        rw [FrameWrite.leaves?, if_neg hLength] at hLeaves
        cases hLeaves

end Shaped

/-
  After writes within range every slot reads as the cell that the
  last write to it left.
-/
theorem reads_last_write
    (localCount argCount : Nat)
    {writes : List FrameWrite}
    (hWithin :
      ∀ write ∈ writes, write.Within (localCount + argCount)) :
    ∃ frame, (new localCount argCount).writeAll? writes = some frame ∧
      frame.Shaped localCount argCount ∧
      ∀ i, i < localCount + argCount →
        frame.read? i =
          some (lastWrite localCount argCount writes i).reading := by
  induction writes using List.reverseRecOn with
  | nil =>
      refine ⟨_, rfl, shaped_new localCount argCount, ?_⟩
      intro i hInside
      rw [read?, new, Array.getElem?_replicate, if_pos hInside]
      rfl
  | append_singleton writes last ih =>
      rcases ih fun write hMem =>
          hWithin write (List.mem_append_left _ hMem) with
        ⟨frame, hWrites, hShaped, hReads⟩
      have hLast := hWithin last (by simp)
      rcases hShaped.write hLast with
        ⟨frame', hWrite, hWritten⟩
      refine ⟨frame', ?_, hWritten.shaped, ?_⟩
      · rw [writeAll?] at hWrites ⊢
        rw [List.foldlM_append, hWrites]
        simpa using hWrite
      · intro i hInside
        rw [lastWrite_concat]
        cases hLeaves : last.leaves? localCount argCount i with
        | some cell => exact hWritten.left i cell hInside hLeaves
        | none =>
            rw [read?, hWritten.others i hLeaves]
            exact hReads i hInside

end Frame

end RegisterVM
