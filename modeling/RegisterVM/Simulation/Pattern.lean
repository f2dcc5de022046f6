/-
  Patterns of receivers: which of some classes each call goes to.

  Key definitions include:
    * `Pattern`
    * `Pattern.pick`
-/

namespace RegisterVM

/- An order in which receivers come. -/
inductive Pattern where
  /- Always the first class. -/
  | mono
  /- All classes in turn. -/
  | cycle
  /- Nine calls in ten to the first class, the rest in turn. -/
  | skewed
  deriving DecidableEq, Repr, Inhabited

namespace Pattern

/- Every pattern. -/
def all : List Pattern :=
  [mono, cycle, skewed]

/- The word for a pattern. -/
def text : Pattern → String
  | mono => "mono"
  | cycle => "cycle"
  | skewed => "skewed"

/- The pattern of a word. -/
def ofText?
    (word : String) : Option Pattern :=
  all.find? fun p => p.text == word

/- The class of a call, out of a number of classes. -/
def pick
    (p : Pattern)
    (classes call : Nat) : Nat :=
  match p with
  | mono => 0
  | cycle => call % classes
  | skewed => if call % 10 = 9 then call / 10 % classes else 0

end Pattern

end RegisterVM
