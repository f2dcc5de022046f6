import RegisterVM.Object.Heap
import RegisterVM.Text.Quoted

/-
  Constants. Besides literals a constant pool holds plans that
  are made at compile time (shapes of calls, slots by name, which
  elements of a list are spread), declarations, and parts of the
  program that are run by evaluating a body.

  Key definitions include:
    * `SpreadPlan`
    * `NamedSlots`
    * `CallPlan`
    * `Statement`
    * `Deferred`
    * `Constant`
    * `Constant.text`
-/

namespace RegisterVM

------------------------------------------------------------
-- Plans
------------------------------------------------------------

/- Which elements of a list are spread. -/
structure SpreadPlan where
  spreads : List Bool
  deriving DecidableEq, Repr

namespace SpreadPlan

/- Whether an element is spread. -/
def isSpread
    (plan : SpreadPlan)
    (i : Nat) : Bool :=
  plan.spreads.getD i false

/- The number of spread elements. -/
def count
    (plan : SpreadPlan) : Nat :=
  (plan.spreads.filter id).length

/- The text of a plan. -/
def text
    (plan : SpreadPlan) : String :=
  let marks := plan.spreads.map fun b => if b then "..." else "_"
  "[" ++ ", ".intercalate marks ++ "]"

end SpreadPlan

/- Slots by name. Every name stands once. -/
structure NamedSlots where
  entries : List (String × Nat)
  deriving DecidableEq, Repr

namespace NamedSlots

/- Slots by name, of which later ones win. -/
def ofEntries
    (entries : List (String × Nat)) : NamedSlots :=
  ⟨entries.foldl
    (fun kept entry =>
      entry :: kept.filter fun other => other.1 ≠ entry.1)
    []⟩

/- The slot of a name. -/
def get?
    (plan : NamedSlots)
    (name : String) : Option Nat :=
  plan.entries.lookup name

/- Whether an entry comes before another: by slot, then by name. -/
def before
    (a b : String × Nat) : Bool :=
  a.2 < b.2 || (a.2 == b.2 && (a.1 < b.1 || a.1 == b.1))

/- The entries, by slot and then by name. -/
def sorted
    (plan : NamedSlots) : List (String × Nat) :=
  plan.entries.mergeSort before

/- The text of a plan. -/
def text
    (plan : NamedSlots) : String :=
  let entries := plan.sorted.map fun (name, slot) => s!"{name}=s{slot}"
  "\x7b" ++ ", ".intercalate entries ++ "\x7d"

end NamedSlots

/- One argument of a call. -/
structure ArgSpec where
  name : Option String
  spread : Bool
  deriving DecidableEq, Repr

/- The shape of the arguments of a call. -/
structure CallPlan where
  args : List ArgSpec
  /- Whether the last argument is a block after the call. -/
  trailingBlock : Bool
  deriving DecidableEq, Repr

namespace CallPlan

/- The number of plain arguments. -/
def positionalCount
    (plan : CallPlan) : Nat :=
  (plan.args.filter fun a => a.name.isNone && !a.spread).length

/- The named arguments with their places. -/
def named
    (plan : CallPlan) : List (Nat × String) :=
  plan.args.zipIdx.filterMap fun (a, i) => a.name.map fun n => (i, n)

/- Whether any argument is spread. -/
def hasSpread
    (plan : CallPlan) : Bool :=
  plan.args.any ArgSpec.spread

/- The text of one argument. -/
def argText
    (a : ArgSpec)
    (i : Nat) : String :=
  let spread := if a.spread then "*" else ""
  let name :=
    match a.name with
    | some n => n ++ "="
    | none => ""
  s!"{spread}{name}a{i}"

/- The text of a plan. -/
def text
    (plan : CallPlan) : String :=
  let args := plan.args.zipIdx.map fun (a, i) => argText a i
  let block := if plan.trailingBlock then " +block" else ""
  "(" ++ ", ".intercalate args ++ ")" ++ block

end CallPlan

------------------------------------------------------------
-- Declarations and evaluated parts
------------------------------------------------------------

/- A type by name. -/
structure TypeRef where
  name : String
  nullable : Bool
  deriving DecidableEq, Repr

/- A property added to a type. -/
structure ExtensionDecl where
  receiver : TypeRef
  name : String
  isMutable : Bool
  visibility : Visibility
  deriving DecidableEq, Repr

/- A local variable. -/
structure LocalDecl where
  name : String
  isMutable : Bool
  visibility : Visibility
  transient : Bool
  deriving DecidableEq, Repr

/- The flags of a declaration. -/
def flagsText
    (isMutable : Bool)
    (visibility : Visibility) : String :=
  (if isMutable then "var " else "val ") ++ visibility.text

/-
  A statement that is evaluated rather than encoded. It stores
  some values in the frame and then runs a body.
-/
structure Statement where
  describe : String
  stores : List (Nat × Expr)
  body : Option Body
  deriving Repr

/- A value that is produced when it is needed. -/
structure Deferred where
  label : String
  body : Body
  deriving Repr

/- A deferred value by its label. -/
def Deferred.debug
    (d : Deferred) : String :=
  s!"DeferredValue({d.label})"

------------------------------------------------------------
-- Constants
------------------------------------------------------------

/- An entry of a constant pool. -/
inductive Constant where
  | null
  | bool (b : Bool)
  | int (i : Int64)
  | real (r : Binary64)
  | str (s : String)
  | position (line column : Nat)
  | object (v : Value)
  | type (t : TypeRef)
  | statement (s : Statement)
  | spread (plan : SpreadPlan)
  | deferred (d : Deferred)
  | slots (plan : NamedSlots)
  | extension (d : ExtensionDecl)
  | localVar (d : LocalDecl)
  | args (plan : CallPlan)
  deriving Repr

namespace Constant

/- The word for the kind of a constant. -/
def kind : Constant → String
  | null => "null"
  | bool _ => "bool"
  | int _ => "int"
  | real _ => "real"
  | str _ => "str"
  | position .. => "pos"
  | object _ => "obj"
  | type _ => "type"
  | statement _ => "stmt"
  | spread _ => "spread"
  | deferred _ => "deferred"
  | slots _ => "slots"
  | extension _ => "ext"
  | localVar _ => "local"
  | args _ => "args"

/- The content of a string constant. -/
def str? : Constant → Option String
  | str s => some s
  | _ => none

/- The value of a literal. -/
def value? : Constant → Option Value
  | null => some .nil
  | bool b => some (.bool b)
  | int i => some (.int i)
  | real r => some (.real r)
  | str s => some (.str s)
  | object v => some v
  | _ => none

/- The text of the content of a constant. -/
def contentText
    (heap : Heap) : Constant → String
  | null => "null"
  | bool b => if b then "true" else "false"
  | int i => toString i.toInt
  | real r => r.text
  | str s => Text.quote s
  | position line column => s!"{line}:{column}"
  | object v => heap.text v
  | type t => t.name ++ if t.nullable then "?" else ""
  | statement s => s.describe
  | spread plan => plan.text
  | deferred d => d.label
  | slots plan => plan.text
  | extension d =>
    s!"{flagsText d.isMutable d.visibility} {d.receiver.name}.{d.name}"
  | localVar d =>
    s!"{flagsText d.isMutable d.visibility} {d.name}"
      ++ if d.transient then " transient" else ""
  | args plan => plan.text

/- The text of a constant. -/
def text
    (heap : Heap)
    (c : Constant) : String :=
  s!"{c.kind} {c.contentText heap}"

/- A constant by its text. -/
def debug
    (heap : Heap)
    (c : Constant) : String :=
  s!"Constant({c.text heap})"

end Constant

end RegisterVM
