import RegisterVM.Object.Value
import RegisterVM.Text.Quoted

/-
  Classes: the methods and class-scope members that a class
  declares, and the slot tables through which its instances
  dispatch.

  Methods are kept in declaration order. Declaring a method again
  keeps its place; removing it and declaring it anew moves it to
  the end. A slot table starts with the slots of the parent:
  overriding methods keep their slot, and new methods that are
  not private follow in declaration order.

  Key definitions include:
    * `MethodRecord`
    * `Class`
    * `Class.insertMethod`
    * `Class.removeMethod`
    * `SlotTable`
    * `SlotTable.place`
    * `SlotTable.extend`
-/

namespace RegisterVM

------------------------------------------------------------
-- Methods
------------------------------------------------------------

/- A method as a class declares it. It is abstract without a body. -/
structure MethodRecord where
  name : String
  visibility : Visibility
  declaring : ClassId
  body : Option Callable
  deriving DecidableEq, Repr, Inhabited

/- Whether a method has no body. -/
def MethodRecord.isAbstract
    (record : MethodRecord) : Bool :=
  record.body.isNone

/- The method of a given name, if it is declared. -/
def findMethod?
    (methods : List MethodRecord)
    (name : String) : Option MethodRecord :=
  methods.find? fun record => record.name == name

/- Declare a method, in the place of an earlier one of its name. -/
def putMethod : List MethodRecord → MethodRecord → List MethodRecord
  | [], record => [record]
  | first :: rest, record =>
    if first.name = record.name then
      record :: rest
    else
      first :: putMethod rest record

------------------------------------------------------------
-- Slot tables
------------------------------------------------------------

/-
  The method slots of a class at one layout version, and the index
  of the names that have a slot, each with its number.
-/
structure SlotTable where
  version : Nat := 0
  slots : Array MethodRecord := #[]
  index : List (String × Nat) := []
  deriving Repr, Inhabited

namespace SlotTable

/- The slot of a method name. -/
def slotOf?
    (table : SlotTable)
    (name : String) : Option Nat :=
  table.index.lookup name

/- The record in a slot. -/
def get?
    (table : SlotTable)
    (slot : Nat) : Option MethodRecord :=
  table.slots[slot]?

/-
  Put a method into the slot of its name. A name without a slot
  gets a new one, and is entered in the index.
-/
def place
    (table : SlotTable)
    (record : MethodRecord) : SlotTable :=
  if record.visibility = .owner then
    table
  else
    match table.slotOf? record.name with
    | some slot =>
      { table with slots := table.slots.setIfInBounds slot record }
    | none =>
      { table with
        slots := table.slots.push record
        index := (record.name, table.slots.size) :: table.index }

/- Place the methods of a class, in declaration order. -/
def extend
    (table : SlotTable)
    (methods : List MethodRecord) : SlotTable :=
  methods.foldl place table

end SlotTable

------------------------------------------------------------
-- Classes
------------------------------------------------------------

/-
  A class. Its lineage is the class itself and then its ancestors,
  nearest first. Its stamp is the moment of the latest change to
  its members, and the slot table last built for it is kept.
-/
structure Class where
  id : ClassId
  name : String
  lineage : List ClassId
  stamp : Nat
  methods : List MethodRecord := []
  statics : List (String × Callable) := []
  table : Option SlotTable := none
  deriving Repr, Inhabited

namespace Class

/- The parent of a class. -/
def parent?
    (c : Class) : Option ClassId :=
  c.lineage[1]?

/- Declare a method. -/
def insertMethod
    (c : Class)
    (name : String)
    (visibility : Visibility)
    (body : Option Callable) : Class :=
  { c with
    methods := putMethod c.methods ⟨name, visibility, c.id, body⟩ }

/- Remove a method. -/
def removeMethod
    (c : Class)
    (name : String) : Class :=
  { c with methods := c.methods.filter fun record => record.name ≠ name }

/- Declare a class-scope member, in the place of an earlier one. -/
def insertStatic
    (c : Class)
    (name : String)
    (body : Callable) : Class :=
  { c with
    statics :=
      (name, body) :: c.statics.filter fun member => member.1 ≠ name }

/- The method that a class itself declares. -/
def method?
    (c : Class)
    (name : String) : Option MethodRecord :=
  findMethod? c.methods name

/- The class-scope member that a class itself declares. -/
def static?
    (c : Class)
    (name : String) : Option Callable :=
  c.statics.lookup name

/- A class without its members. -/
def debug
    (c : Class) : String :=
  let parent :=
    match c.parent? with
    | some p => s!"Some({p})"
    | none => "None"
  s!"Class \x7b id: {c.id}, name: " ++ Text.quote c.name
    ++ s!", parent: {parent} \x7d"

end Class

end RegisterVM
