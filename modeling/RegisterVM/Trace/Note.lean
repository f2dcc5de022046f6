import RegisterVM.Trace.Filter

/-
  Notes: what a command writes beside its result, in order. Some
  notes are written always, and events only as far as a filter
  lets them through.

  Key definitions include:
    * `Trace.Note`
    * `Trace.Note.shown?`
    * `Trace.shownText`
-/

namespace RegisterVM

namespace Trace

/- One note. -/
inductive Note where
  | event (e : Event)
  | plain (text : String)
  deriving DecidableEq, Repr

/- The text of a note, if it is written under a filter. -/
def Note.shown?
    (filter : Option Filter) : Note → Option String
  | event e =>
    match filter with
    | some f => if f.shows e then some e.line else none
    | none => none
  | plain text => some text

/- The notes that are written under a filter, each ended. -/
def shownText
    (filter : Option Filter)
    (notes : List Note) : String :=
  String.join
    ((notes.filterMap (Note.shown? filter)).map fun text => text ++ "\n")

end Trace

end RegisterVM
