import RegisterVM.Binary64

/-
  Values, and the bodies of native methods.

  A body is a description of what a method does when it is
  called: a small program over named objects that may call
  methods and call sites, change classes, switch the calling
  class, and raise or catch faults. The names in a body are
  looked up when the body runs.

  Key definitions include:
    * `Visibility`
    * `Expr`
    * `Body`
    * `Callable`
    * `Instance`
    * `Value`
-/

namespace RegisterVM

------------------------------------------------------------
-- Visibility
------------------------------------------------------------

/- Who may call a method. -/
inductive Visibility where
  | everyone
  | descendants
  | owner
  deriving DecidableEq, Repr, Inhabited

/- The word for a visibility. -/
def Visibility.text : Visibility → String
  | everyone => "public"
  | descendants => "protected"
  | owner => "private"

------------------------------------------------------------
-- Bodies
------------------------------------------------------------

/- What a body may pass on as a value. -/
inductive Expr where
  | nil
  | bool (b : Bool)
  | int (i : Int64)
  | real (r : Binary64)
  | str (s : String)
  /- A named instance, class or function. -/
  | inst (name : String)
  | cls (name : String)
  | func (name : String)
  /- A new instance of a named class. -/
  | fresh (className : String)
  /- The receiver of the running call. -/
  | self
  /- An argument of the running call, nil when absent. -/
  | arg (i : Nat)
  /- The calling class, nil outside every class. -/
  | caller
  deriving DecidableEq, Repr, Inhabited

/- What a native method does. -/
inductive Body where
  | const (value : Expr)
  /- The number of arguments. -/
  | argc
  /- The sum of the integer arguments. -/
  | sum
  /- The texts of the arguments, separated by bars. -/
  | join
  /- Raise a plain failure. -/
  | fail (message : String)
  /- Report a member as missing. -/
  | raise (owner member : String)
  /- Call through a named site. -/
  | site (site : String) (receiver : Expr) (args : List Expr)
  /- Call a method by name. -/
  | method (member : String) (receiver : Expr) (args : List Expr)
  /- Sum the numbers from the argument down to one. -/
  | countdown (site : String)
  /- Declare a method of a named class. -/
  | define
      (className member : String) (visibility : Visibility)
      (label : String) (body : Body)
  /- Declare a method without a body. -/
  | declare (className member : String) (visibility : Visibility)
  /- Declare a class-scope member. -/
  | defineStatic (className member label : String) (body : Body)
  /- Remove a method. -/
  | undefine (className member : String)
  /- Run with another calling class. -/
  | asCaller (className : Option String) (body : Body)
  /- Run one body and then another. -/
  | andThen (first second : Body)
  /- Turn a fault into its text. -/
  | catching (body : Body)
  /- Write a message to the log. -/
  | log (message : String)
  deriving DecidableEq, Repr, Inhabited

/-
  Run bodies in order and yield the value of the last, nil if
  there is none.
-/
def Body.seq : List Body → Body
  | [] => .const .nil
  | [body] => body
  | body :: rest => .andThen body (Body.seq rest)

------------------------------------------------------------
-- Values
------------------------------------------------------------

/- The identity of a class, counted from one. -/
abbrev ClassId :=
  Nat

/- A named native function with an identity of its own. -/
structure Callable where
  ident : Nat
  name : String
  body : Body
  deriving DecidableEq, Repr, Inhabited

/- A function by its name. -/
def Callable.debug
    (f : Callable) : String :=
  s!"Callable({f.name})"

/- An object of a class, with an identity of its own. -/
structure Instance where
  ident : Nat
  cls : ClassId
  deriving DecidableEq, Repr, Inhabited

/- What slots hold and calls exchange. -/
inductive Value where
  | nil
  | bool (b : Bool)
  | int (i : Int64)
  | real (r : Binary64)
  | str (s : String)
  | inst (i : Instance)
  | cls (c : ClassId)
  | func (f : Callable)
  deriving DecidableEq, Repr, Inhabited

namespace Value

/- The name of the type of a value. -/
def typeName : Value → String
  | nil => "Nil"
  | bool _ => "Bool"
  | int _ => "Int"
  | real _ => "Real"
  | str _ => "String"
  | inst _ => "Instance"
  | cls _ => "Class"
  | func _ => "Function"

/- Whether a value is nil. -/
def isNil : Value → Bool
  | nil => true
  | _ => false

/-
  Equality of values: plain data by content, reals numerically,
  and instances, classes and functions by identity.
-/
def eqv : Value → Value → Bool
  | nil, nil => true
  | bool a, bool b => a == b
  | int a, int b => a == b
  | real a, real b => a.eqv b
  | str a, str b => a == b
  | inst a, inst b => a.ident == b.ident
  | cls a, cls b => a == b
  | func a, func b => a.ident == b.ident
  | _, _ => false

end Value

end RegisterVM
