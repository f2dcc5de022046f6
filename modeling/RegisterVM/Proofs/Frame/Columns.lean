import RegisterVM.Proofs.Frame.Writes

/-
  Frames in columns. In memory the slots of a frame lie in five
  columns of one length, one for the tags and one for each of the
  representations, and a write touches only the columns of what it
  writes. No write within range fails, the columns keep their
  length, and they always hold what the slots do.

  Key definitions include:
    * `FrameColumns`
    * `FrameColumns.put?`
    * `FrameColumns.load?`
    * `FrameColumns.read?`
    * `FrameColumns.write?`
    * `Frame.columns`

  Key theorems include:
    * `Frame.read?_columns`
    * `Frame.put?_columns`
    * `Frame.Shaped.write?_columns`
    * `Frame.refines_cells`
-/

namespace RegisterVM

------------------------------------------------------------
-- Columns
------------------------------------------------------------

/- Change one entry of a column, which must have it. -/
def setAt?
    {α : Type}
    (column : Array α)
    (i : Nat)
    (x : α) : Option (Array α) :=
  if i < column.size then some (column.setIfInBounds i x) else none

/- The slots of a frame, each property in a column of its own. -/
structure FrameColumns where
  localCount : Nat
  argCount : Nat
  tags : Array SlotTag
  objects : Array Value
  ints : Array Int64
  reals : Array Binary64
  bools : Array Bool

namespace FrameColumns

/- Columns of empty slots. -/
def new
    (localCount argCount : Nat) : FrameColumns where
  localCount
  argCount
  tags := Array.replicate (localCount + argCount) .unknown
  objects := Array.replicate (localCount + argCount) .nil
  ints := Array.replicate (localCount + argCount) 0
  reals := Array.replicate (localCount + argCount) .zero
  bools := Array.replicate (localCount + argCount) false

/- Columns of one length. -/
structure Sized
    (c : FrameColumns)
    (count : Nat) : Prop where
  tags : c.tags.size = count
  objects : c.objects.size = count
  ints : c.ints.size = count
  reals : c.reals.size = count
  bools : c.bools.size = count

------------------------------------------------------------
-- Reading Columns
------------------------------------------------------------

/- An entry of a column, if its slot has the tag of the column. -/
def live?
    {α : Type}
    (c : FrameColumns)
    (tag : SlotTag)
    (column : Array α)
    (i : Nat) : Option α :=
  if c.tags[i]? = some tag then column[i]? else none

/- The live value of a slot. -/
def load?
    (c : FrameColumns)
    (i : Nat) : Option Value :=
  match c.tags[i]? with
  | none => none
  | some .unknown => some .nil
  | some .object => c.objects[i]?
  | some .int => c.ints[i]?.map .int
  | some .real => c.reals[i]?.map .real
  | some .bool => c.bools[i]?.map .bool

/- All that can be read from a slot. -/
def read?
    (c : FrameColumns)
    (i : Nat) : Option Reading := do
  let tag ← c.tags[i]?
  let value ← c.load? i
  return {
    tag
    value
    int := c.live? .int c.ints i
    real := c.live? .real c.reals i
    bool := c.live? .bool c.bools i
    object := c.live? .object c.objects i }

------------------------------------------------------------
-- Writing Columns
------------------------------------------------------------

/- Write one representation and the tag, or clear all columns. -/
def put?
    (c : FrameColumns)
    (i : Nat) : Cell → Option FrameColumns
  | .int x => do
    let ints ← setAt? c.ints i x
    let tags ← setAt? c.tags i .int
    return { c with ints, tags }
  | .real x => do
    let reals ← setAt? c.reals i x
    let tags ← setAt? c.tags i .real
    return { c with reals, tags }
  | .bool x => do
    let bools ← setAt? c.bools i x
    let tags ← setAt? c.tags i .bool
    return { c with bools, tags }
  | .object x => do
    let objects ← setAt? c.objects i x
    let tags ← setAt? c.tags i .object
    return { c with objects, tags }
  | .empty => do
    let tags ← setAt? c.tags i .unknown
    let objects ← setAt? c.objects i .nil
    let ints ← setAt? c.ints i 0
    let reals ← setAt? c.reals i .zero
    let bools ← setAt? c.bools i false
    return { c with tags, objects, ints, reals, bools }

/- Clear every slot. -/
def clearAll
    (c : FrameColumns) : FrameColumns :=
  { c with
    tags := c.tags.map fun _ => .unknown
    objects := c.objects.map fun _ => .nil
    ints := c.ints.map fun _ => 0
    reals := c.reals.map fun _ => .zero
    bools := c.bools.map fun _ => false }

/- Store values in consecutive slots. -/
def storeAll?
    (c : FrameColumns)
    (base : Nat) : List Value → Option FrameColumns
  | [] => some c
  | v :: rest => do
    let c ← c.put? base (.ofValue v)
    c.storeAll? (base + 1) rest

/-
  Write the arguments of a call. The outcome comes with the columns
  that are left, whether the arguments are accepted or refused.
-/
def bindArgs?
    (c : FrameColumns)
    (args : List Value) :
    Option (Except ArgCountError Unit × FrameColumns) := do
  if args.length = c.argCount then
    let bound ← c.storeAll? c.localCount args
    return (.ok (), bound)
  else
    return (.error ⟨c.argCount, args.length⟩, c)

/- Perform one write. -/
def write?
    (c : FrameColumns) : FrameWrite → Option FrameColumns
  | .put slot cell => c.put? slot cell
  | .store slot v => c.put? slot (.ofValue v)
  | .clearAll => some c.clearAll
  | .bind args => (c.bindArgs? args).map Prod.snd

/- Perform writes in order. -/
def writeAll?
    (c : FrameColumns)
    (writes : List FrameWrite) : Option FrameColumns :=
  writes.foldlM write? c

end FrameColumns

namespace Frame

/- The columns that hold the slots of a frame. -/
def columns
    (frame : Frame) : FrameColumns where
  localCount := frame.localCount
  argCount := frame.argCount
  tags := frame.slots.map Slot.tag
  objects := frame.slots.map Slot.object
  ints := frame.slots.map Slot.int
  reals := frame.slots.map Slot.real
  bools := frame.slots.map Slot.bool

theorem columns_new
    (localCount argCount : Nat) :
    (new localCount argCount).columns =
      FrameColumns.new localCount argCount := by
  simp [columns, new, FrameColumns.new]

theorem sized_columns
    (frame : Frame) :
    frame.columns.Sized frame.slots.size :=
  ⟨Array.size_map, Array.size_map, Array.size_map, Array.size_map,
    Array.size_map⟩

/- A slot is read from the columns as it is from the frame. -/
theorem read?_columns
    (frame : Frame)
    (i : Nat) :
    frame.columns.read? i = frame.read? i := by
  unfold FrameColumns.read? FrameColumns.load? FrameColumns.live?
    columns read?
  simp only [Array.getElem?_map]
  cases frame.slots[i]? with
  | none => rfl
  | some slot =>
      rcases slot with ⟨tag, object, int, real, bool⟩
      cases tag <;> rfl

------------------------------------------------------------
-- Writing Slots And Columns
------------------------------------------------------------

section Entries

variable {slots : Array Slot} {i : Nat} {change : Slot → Slot}
  {α : Type} {field : Slot → α}

/- A changed property of one slot is one changed entry. -/
theorem setAt?_map
    (hInside : i < slots.size)
    {x : α}
    (hChange : ∀ slot, field (change slot) = x) :
    setAt? (slots.map field) i x =
      some ((slots.modify i change).map field) := by
  have hColumn : i < (slots.map field).size := by
    rwa [Array.size_map]
  rw [setAt?, if_pos hColumn]
  congr 1
  apply Array.ext_getElem?
  intro j
  rw [Array.getElem?_setIfInBounds, Array.getElem?_map,
    Array.getElem?_map, Array.getElem?_modify]
  split
  next hSame =>
    subst hSame
    rw [Array.getElem?_eq_getElem hInside]
    exact congrArg some (hChange _).symm
  next => rfl

theorem setAt?_of_outside
    (hOutside : ¬i < slots.size)
    (x : α) :
    setAt? (slots.map field) i x = none :=
  if_neg (by rwa [Array.size_map])

/- A property that no change touches keeps its column. -/
theorem map_modify_of_same
    (hSame : ∀ slot, field (change slot) = field slot) :
    (slots.modify i change).map field = slots.map field := by
  apply Array.ext_getElem?
  intro j
  rw [Array.getElem?_map, Array.getElem?_map, Array.getElem?_modify]
  split
  next =>
    rw [Option.map_map]
    exact congrArg (Option.map · slots[j]?) (funext hSame)
  next => rfl

end Entries

/- A write to a slot is one to the columns. -/
theorem put?_columns
    (frame : Frame)
    (i : Nat)
    (cell : Cell) :
    frame.columns.put? i cell =
      (frame.write? (.put i cell)).map columns := by
  rw [write?_put, modify?]
  by_cases hInside : i < frame.slots.size
  · rw [if_pos hInside]
    have hSet {α : Type} {field : Slot → α} {x : α}
        (hField : ∀ slot : Slot, field (slot.put cell) = x) :
        setAt? (frame.slots.map field) i x =
          some ((frame.slots.modify i (·.put cell)).map field) :=
      setAt?_map hInside hField
    have hKept {α : Type} (field : Slot → α)
        (hField : ∀ slot : Slot, field (slot.put cell) = field slot) :
        (frame.slots.modify i (·.put cell)).map field =
          frame.slots.map field :=
      map_modify_of_same hField
    unfold columns FrameColumns.put?
    cases cell with
    | int x =>
        dsimp only [Option.map_some]
        rw [hSet fun _ => rfl, hSet fun _ => rfl,
          hKept Slot.object fun _ => rfl,
          hKept Slot.real fun _ => rfl, hKept Slot.bool fun _ => rfl]
        rfl
    | real x =>
        dsimp only [Option.map_some]
        rw [hSet fun _ => rfl, hSet fun _ => rfl,
          hKept Slot.object fun _ => rfl,
          hKept Slot.int fun _ => rfl, hKept Slot.bool fun _ => rfl]
        rfl
    | bool x =>
        dsimp only [Option.map_some]
        rw [hSet fun _ => rfl, hSet fun _ => rfl,
          hKept Slot.object fun _ => rfl,
          hKept Slot.int fun _ => rfl, hKept Slot.real fun _ => rfl]
        rfl
    | object x =>
        dsimp only [Option.map_some]
        rw [hSet fun _ => rfl, hSet fun _ => rfl,
          hKept Slot.int fun _ => rfl,
          hKept Slot.real fun _ => rfl, hKept Slot.bool fun _ => rfl]
        rfl
    | empty =>
        dsimp only [Option.map_some]
        rw [hSet fun _ => rfl, hSet fun _ => rfl, hSet fun _ => rfl,
          hSet fun _ => rfl, hSet fun _ => rfl]
        rfl
  · rw [if_neg hInside]
    have hNone {α : Type} (field : Slot → α) (x : α) :
        setAt? (frame.slots.map field) i x = none :=
      setAt?_of_outside hInside x
    cases cell <;>
      simp only [FrameColumns.put?, columns, hNone] <;> rfl

theorem clearAll_columns
    (frame : Frame) :
    frame.columns.clearAll = frame.clearAll.columns := by
  simp [FrameColumns.clearAll, columns, clearAll]

/- Values that fit are stored in the columns as in the slots. -/
theorem storeAll?_columns
    (frame : Frame)
    {base : Nat}
    {args : List Value}
    (hFits : base + args.length ≤ frame.slots.size) :
    frame.columns.storeAll? base args =
      some (frame.storeAll base args).columns := by
  induction args generalizing frame base with
  | nil => rfl
  | cons v rest ih =>
      rw [List.length_cons] at hFits
      have hInside : base < frame.slots.size := by omega
      let first : Frame :=
        { frame with
          slots := frame.slots.modify base (·.put (.ofValue v)) }
      have hSize : first.slots.size = frame.slots.size :=
        Array.size_modify
      have hFitsRest : base + 1 + rest.length ≤ first.slots.size := by
        omega
      rw [FrameColumns.storeAll?, put?_columns, storeAll, store?_eq_put,
        write?_put, modify?_of_inside hInside]
      exact ih first hFitsRest

namespace Shaped

variable {frame : Frame} {localCount argCount : Nat}

/- Binding leaves the columns of what it leaves of the frame. -/
theorem bindArgs?_columns
    (hShaped : frame.Shaped localCount argCount)
    (args : List Value) :
    frame.columns.bindArgs? args =
      some
        (((bindArgs args).run frame).1,
          ((bindArgs args).run frame).2.columns) := by
  have hArgs : frame.columns.argCount = argCount := hShaped.args
  have hLocals : frame.columns.localCount = localCount :=
    hShaped.locals
  rw [FrameColumns.bindArgs?, hArgs, hLocals]
  rcases hShaped.bindArgs_cases args with
    ⟨hLength, hBind⟩ | ⟨hLength, hBind⟩
  · rw [if_pos hLength, hBind, frame.storeAll?_columns]
    · rfl
    · exact Nat.le_of_eq (by rw [hLength, hShaped.size])
  · rw [if_neg hLength, hBind]
    rfl

/- A write to a frame is one to its columns. -/
theorem write?_columns
    (hShaped : frame.Shaped localCount argCount)
    (write : FrameWrite) :
    frame.columns.write? write = (frame.write? write).map columns := by
  cases write with
  | put slot cell => exact frame.put?_columns slot cell
  | store slot v =>
      rw [write?, store?_eq_put]
      exact frame.put?_columns slot (.ofValue v)
  | clearAll => exact congrArg some frame.clearAll_columns
  | bind args =>
      rw [FrameColumns.write?, write?, hShaped.bindArgs?_columns]
      rfl

theorem writeAll?_columns
    (hShaped : frame.Shaped localCount argCount)
    {writes : List FrameWrite}
    (hWithin :
      ∀ write ∈ writes, write.Within (localCount + argCount)) :
    frame.columns.writeAll? writes =
      (frame.writeAll? writes).map columns := by
  induction writes generalizing frame with
  | nil => rfl
  | cons first rest ih =>
      rcases hShaped.write (hWithin first List.mem_cons_self) with
        ⟨frame', hWrite, hWritten⟩
      have hRest := ih hWritten.shaped fun write hMem =>
        hWithin write (List.mem_cons_of_mem _ hMem)
      unfold FrameColumns.writeAll? writeAll? at hRest ⊢
      rw [List.foldlM_cons, List.foldlM_cons,
        hShaped.write?_columns, hWrite]
      exact hRest

end Shaped

------------------------------------------------------------
-- Runs
------------------------------------------------------------

/-
  A new frame after any writes within range, to slots and to the
  five columns that hold them. No write fails, the columns are as
  long as the frame has slots, and each slot reads, from either,
  as the cell that the last write to it left. A further write
  leaves all other slots as they are; arguments of a wrong number
  are refused, with the slots and the columns left as they were,
  and others are collected as they were bound, with the locals
  unchanged.
-/
theorem refines_cells
    (localCount argCount : Nat)
    {writes : List FrameWrite}
    (hWithin :
      ∀ write ∈ writes, write.Within (localCount + argCount)) :
    ∃ frame,
      (new localCount argCount).writeAll? writes = some frame ∧
        (FrameColumns.new localCount argCount).writeAll? writes =
          some frame.columns ∧
        frame.columns.Sized (localCount + argCount) ∧
        (∀ i, i < localCount + argCount →
          let cell := lastWrite localCount argCount writes i
          frame.read? i = some cell.reading ∧
            frame.columns.read? i = some cell.reading) ∧
        (∀ write, write.Within (localCount + argCount) →
          ∃ frame', frame.write? write = some frame' ∧
            frame.columns.write? write = some frame'.columns ∧
            ∀ i, write.leaves? localCount argCount i = none →
              frame'.slots[i]? = frame.slots[i]?) ∧
        ∀ args,
          (args.length ≠ argCount ∧
              (bindArgs args).run frame =
                (.error ⟨argCount, args.length⟩, frame) ∧
              frame.columns.bindArgs? args =
                some (.error ⟨argCount, args.length⟩,
                  frame.columns) ∧
              frame.write? (.bind args) = some frame) ∨
            (args.length = argCount ∧
              ∃ bound,
                (bindArgs args).run frame = (.ok (), bound) ∧
                frame.columns.bindArgs? args =
                  some (.ok (), bound.columns) ∧
                bound.collect? bound.argBase bound.argCount =
                  some args ∧
                ∀ i, i < localCount →
                  bound.slots[i]? = frame.slots[i]?) := by
  rcases reads_last_write localCount argCount hWithin with
    ⟨frame, hWrites, hShaped, hReads⟩
  refine ⟨frame, hWrites, ?_, ?_, ?_, ?_, ?_⟩
  · rw [← columns_new,
      (shaped_new localCount argCount).writeAll?_columns hWithin,
      hWrites]
    rfl
  · rw [← hShaped.size]
    exact frame.sized_columns
  · intro i hInside
    exact ⟨hReads i hInside,
      (frame.read?_columns i).trans (hReads i hInside)⟩
  · intro write hInside
    rcases hShaped.write hInside with ⟨frame', hWrite, hWritten⟩
    refine ⟨frame', hWrite, ?_, hWritten.others⟩
    rw [hShaped.write?_columns, hWrite]
    rfl
  · intro args
    have hColumns := hShaped.bindArgs?_columns args
    rcases hShaped.bindArgs_cases args with
      ⟨hLength, hBind⟩ | ⟨hLength, hBind⟩
    · rw [hBind] at hColumns
      have hBound := hShaped.storeAll hLength
      refine Or.inr ⟨hLength, _, hBind, hColumns, ?_, ?_⟩
      · rw [argBase, hBound.shaped.locals, hBound.shaped.args]
        exact hShaped.collect?_storeAll hLength
      · intro i hLocal
        apply hBound.others
        rw [FrameWrite.leaves?, if_pos hLength, FrameWrite.argument?,
          if_neg (Nat.not_le.mpr hLocal)]
        rfl
    · rw [hBind] at hColumns
      refine Or.inl ⟨hLength, hBind, hColumns, ?_⟩
      rw [write?, hBind]

/-
  A local is a real and then an integer, an argument is boxed and
  then bound, and one binding has too few arguments.
-/
theorem refines_cells_of_retyped :
    let writes : List FrameWrite :=
      [.put 0 (.real .zero), .put 0 (.int 7),
        .put 2 (.object (.bool true)), .bind [.str "s", .int 5],
        .bind [.nil]]
    (∀ write ∈ writes, write.Within (1 + 2)) ∧
      ∃ frame, (new 1 2).writeAll? writes = some frame ∧
        frame.columns.Sized 3 ∧
        frame.columns.read? 0 = some (Cell.int 7).reading ∧
        frame.columns.read? 1 = some (Cell.object (.str "s")).reading ∧
        frame.columns.read? 2 = some (Cell.int 5).reading := by
  intro writes
  have hWithin : ∀ write ∈ writes, write.Within (1 + 2) := by
    decide
  rcases refines_cells 1 2 hWithin with
    ⟨frame, hWrites, _, hSized, hReads, _⟩
  exact ⟨hWithin, frame, hWrites, hSized, (hReads 0 (by decide)).2,
    (hReads 1 (by decide)).2, (hReads 2 (by decide)).2⟩

end Frame

end RegisterVM
