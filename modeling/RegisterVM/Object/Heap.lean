import RegisterVM.Object.Class

/-
  The heap: all classes, and the counters that give classes,
  layout versions and objects their identity.

  Every change to the members of a class stamps the class with
  the next moment of one common clock. The layout version of a
  class is the newest stamp along its lineage, so a change to any
  ancestor shows as a new version of every descendant.

  Key definitions include:
    * `Heap`
    * `Heap.version`
    * `Heap.newClass`
    * `Heap.defineMethod`
    * `Heap.removeMethod`
    * `Heap.slotTable`
    * `Heap.resolve`
    * `Heap.resolveStatic`
-/

namespace RegisterVM

/- All classes, in order of creation, and the clocks. -/
structure Heap where
  classes : Array Class := #[]
  /- The latest moment that was given out. -/
  epoch : Nat := 0
  /- Identities given to instances and functions so far. -/
  objects : Nat := 0
  deriving Repr, Inhabited

namespace Heap

------------------------------------------------------------
-- Classes
------------------------------------------------------------

/- The class of an identity. -/
def class?
    (heap : Heap)
    (id : ClassId) : Option Class :=
  if id = 0 then none else heap.classes[id - 1]?

/- Replace a class. -/
def setClass
    (heap : Heap)
    (id : ClassId)
    (c : Class) : Heap :=
  { heap with classes := heap.classes.setIfInBounds (id - 1) c }

/- The name of a class. -/
def className
    (heap : Heap)
    (id : ClassId) : String :=
  ((heap.class? id).map Class.name).getD ""

/- A class and its ancestors, nearest first. -/
def lineage
    (heap : Heap)
    (id : ClassId) : List ClassId :=
  ((heap.class? id).map Class.lineage).getD []

/- Whether one class is another or descends from it. -/
def isSubclass
    (heap : Heap)
    (id ancestor : ClassId) : Bool :=
  (heap.lineage id).contains ancestor

/- The stamp of a class. -/
def stamp
    (heap : Heap)
    (id : ClassId) : Nat :=
  ((heap.class? id).map Class.stamp).getD 0

/- The newest stamp among some classes. -/
def newest
    (heap : Heap)
    (ids : List ClassId) : Nat :=
  ids.foldl (fun version id => max version (heap.stamp id)) 0

/- The layout version of a class. -/
def version
    (heap : Heap)
    (id : ClassId) : Nat :=
  heap.newest (heap.lineage id)

/- Create a class. -/
def newClass
    (heap : Heap)
    (name : String)
    (parent : Option ClassId) : ClassId × Heap :=
  let id := heap.classes.size + 1
  let ancestors :=
    match parent with
    | some p => heap.lineage p
    | none => []
  let c : Class :=
    { id, name, lineage := id :: ancestors, stamp := heap.epoch + 1 }
  (id,
    { heap with
      classes := heap.classes.push c
      epoch := heap.epoch + 1 })

/- Create an instance of a class. -/
def newInstance
    (heap : Heap)
    (cls : ClassId) : Instance × Heap :=
  (⟨heap.objects, cls⟩, { heap with objects := heap.objects + 1 })

/- Create a function. -/
def newCallable
    (heap : Heap)
    (name : String)
    (body : Body) : Callable × Heap :=
  (⟨heap.objects, name, body⟩, { heap with objects := heap.objects + 1 })

------------------------------------------------------------
-- Changing members
------------------------------------------------------------

/- Stamp a class with the next moment. -/
def touch
    (heap : Heap)
    (id : ClassId) : Heap :=
  match heap.class? id with
  | none => heap
  | some c =>
    { heap.setClass id { c with stamp := heap.epoch + 1 } with
      epoch := heap.epoch + 1 }

/- Change the members of a class and stamp it. -/
def modifyMembers
    (heap : Heap)
    (id : ClassId)
    (change : Class → Class) : Heap :=
  match heap.class? id with
  | none => heap
  | some c => (heap.setClass id (change c)).touch id

/- Declare a method, abstract without a body. -/
def defineMethod
    (heap : Heap)
    (id : ClassId)
    (name : String)
    (visibility : Visibility)
    (body : Option Callable) : Heap :=
  heap.modifyMembers id fun c => c.insertMethod name visibility body

/- Declare a class-scope member. -/
def defineStatic
    (heap : Heap)
    (id : ClassId)
    (name : String)
    (body : Callable) : Heap :=
  heap.modifyMembers id fun c => c.insertStatic name body

/- Remove a method, and say whether there was one. -/
def removeMethod
    (heap : Heap)
    (id : ClassId)
    (name : String) : Bool × Heap :=
  match (heap.class? id).bind fun c => c.method? name with
  | none => (false, heap)
  | some _ =>
    (true, heap.modifyMembers id fun c => c.removeMethod name)

------------------------------------------------------------
-- Slot tables
------------------------------------------------------------

/- Keep a slot table for later. -/
def keepTable
    (heap : Heap)
    (id : ClassId)
    (table : SlotTable) : Heap :=
  match heap.class? id with
  | none => heap
  | some c => heap.setClass id { c with table := some table }

/- The kept slot table of a class, if it is of a given version. -/
def keptTable?
    (heap : Heap)
    (id : ClassId)
    (version : Nat) : Option SlotTable :=
  ((heap.class? id).bind Class.table).filter fun table =>
    table.version == version

/- The methods that a class itself declares. -/
def methods
    (heap : Heap)
    (id : ClassId) : List MethodRecord :=
  ((heap.class? id).map Class.methods).getD []

/-
  The slot table of the first class of a lineage. A kept table of
  the current version is used as it is; otherwise the table is
  built from that of the parent and kept.
-/
def lineageTable
    (heap : Heap) : List ClassId → SlotTable × Heap
  | [] => ({}, heap)
  | id :: ancestors =>
    let version := heap.newest (id :: ancestors)
    match heap.keptTable? id version with
    | some table => (table, heap)
    | none =>
      let (inherited, heap) := heap.lineageTable ancestors
      let table :=
        { inherited with version }.extend (heap.methods id)
      (table, heap.keepTable id table)

/- The current slot table of a class. -/
def slotTable
    (heap : Heap)
    (id : ClassId) : SlotTable × Heap :=
  heap.lineageTable (heap.lineage id)

------------------------------------------------------------
-- Resolution by name
------------------------------------------------------------

/- A member found by name, with its slot if it has one. -/
structure Resolved where
  record : MethodRecord
  slot : Option Nat
  deriving DecidableEq, Repr

/- The nearest declaration of a method along a lineage. -/
def nearest?
    (heap : Heap)
    (ids : List ClassId)
    (name : String) : Option MethodRecord :=
  ids.findSome? fun id => (heap.class? id).bind fun c => c.method? name

/-
  Find a method by name. A private method has no slot; for any
  other the slot is looked up in the table of the class asked.
-/
def resolve
    (heap : Heap)
    (id : ClassId)
    (name : String) : Option Resolved × Heap :=
  match heap.nearest? (heap.lineage id) name with
  | none => (none, heap)
  | some record =>
    if record.visibility = .owner then
      (some ⟨record, none⟩, heap)
    else
      let (table, heap) := heap.slotTable id
      (some ⟨record, table.slotOf? name⟩, heap)

/- Find a class-scope member by name. -/
def resolveStatic
    (heap : Heap)
    (id : ClassId)
    (name : String) : Option Callable :=
  (heap.lineage id).findSome? fun id =>
    (heap.class? id).bind fun c => c.static? name

------------------------------------------------------------
-- Text of values
------------------------------------------------------------

/- The text of a value. -/
def text
    (heap : Heap) : Value → String
  | .nil => "nil"
  | .bool b => if b then "true" else "false"
  | .int i => toString i.toInt
  | .real r => r.text
  | .str s => s
  | .inst i => s!"<{heap.className i.cls} instance>"
  | .cls c => s!"<class {heap.className c}>"
  | .func f => s!"<fn {f.name}>"

end Heap

end RegisterVM
