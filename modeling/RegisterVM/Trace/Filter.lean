import RegisterVM.Text.Alphanumeric
import RegisterVM.Text.Blank
import RegisterVM.Trace.Event

/-
  Filters of events, and the switches that choose one.

  A filter is a list of directives separated by commas. A bare
  level applies everywhere; `target=level` applies to the targets
  that begin with its own. Brackets after the target restrict a
  directive to events that have a field, or to those inside a
  span. The most specific directive decides.

  Key definitions include:
    * `Trace.Directive`
    * `Trace.Directive.parse?`
    * `Trace.Filter`
    * `Trace.Filter.parse?`
    * `Trace.Filter.shows`
    * `Trace.isEnabled`
    * `Trace.filterText?`
    * `Trace.chosenFilter`
-/

namespace RegisterVM

namespace Trace

------------------------------------------------------------
-- Directives
------------------------------------------------------------

/- The events among those of a target that a directive is about. -/
inductive Reach where
  | all
  /- Those that have a field. -/
  | having (field : List Char)
  /- Those inside a span. -/
  | spanned
  deriving DecidableEq, Repr

/- The most detailed level that a directive lets through. -/
structure Directive where
  target : List Char
  reach : Reach
  /- The rank of that level, zero for none. -/
  limit : Nat
  deriving DecidableEq, Repr

namespace Directive

/- Whether an event has a field. Every event has a message. -/
def hasField
    (event : Event)
    (field : List Char) : Bool :=
  field == "message".toList
    || event.fields.any fun (name, _) => name.toList == field

/-
  Whether a directive is about an event. No event of the machine
  is inside a span.
-/
def fits
    (d : Directive)
    (event : Event) : Bool :=
  d.target.isPrefixOf event.target.toList &&
    match d.reach with
    | .all => true
    | .having field => hasField event field
    | .spanned => false

/-
  Whether a directive gives way to another about the same event:
  to one with a longer target, then to one that asks for a field,
  then to one whose field comes later in the alphabet. Of equal
  ones the earlier gives way.
-/
def yieldsTo
    (d other : Directive) : Bool :=
  if d.target.length = other.target.length then
    match d.reach, other.reach with
    | .having field, .having later => !decide (later < field)
    | .having _, _ => false
    | _, _ => true
  else
    d.target.length < other.target.length

end Directive

------------------------------------------------------------
-- Reading directives
------------------------------------------------------------

/- The rank that a word or a number stands for. -/
def limit?
    (word : List Char) : Option Nat :=
  let names :=
    [("off", 0), ("error", 1), ("warn", 2), ("info", 3),
     ("debug", 4), ("trace", 5)]
  let digits :=
    match word with
    | '+' :: rest => rest
    | other => other
  if !digits.isEmpty && digits.all Char.isDigit then
    match digits.dropWhile (· = '0') with
    | [] => some 0
    | [c] => if c ≤ '5' then some (c.toNat - '0'.toNat) else none
    | _ => none
  else
    (names.find? fun (name, _) => Text.sameLetters name.toList word).map
      Prod.snd

/- The rank after an equals sign. Nothing there means all levels. -/
def limitAfter?
    (word : List Char) : Option Nat :=
  if word.isEmpty then some Level.trace.rank else limit? word

/- Whether a target may start with a character. -/
def startsTarget
    (c : Char) : Bool :=
  Text.isAlphanumeric c || c == '-' || c == ':' || c == '_'

/-
  Read what stands in brackets, after the opening one: the name
  of a span, a field in braces, or both. A field with a value is
  one of a span.
-/
def Reach.parse?
    (text : List Char) : Option (Reach × List Char) :=
  let span := text.takeWhile fun c => c ≠ ']' && c ≠ '\x7b'
  match text.drop span.length with
  | ']' :: rest => some (.spanned, rest)
  | '\x7b' :: rest =>
    let field := rest.takeWhile (· ≠ '\x7d')
    match rest.drop field.length with
    | '\x7d' :: ']' :: rest =>
      if field.isEmpty then
        none
      else if span.isEmpty && !field.contains '=' then
        some (.having field, rest)
      else
        some (.spanned, rest)
    | _ => none
  | _ => none

/-
  Read a directive. Without a level it lets everything through.
  Blanks before a directive belong to its target, which then fits
  no event, and a level cannot follow them.
-/
def Directive.parse?
    (text : List Char) : Option Directive := do
  let blanks := text.takeWhile Text.isBlank
  let body := text.drop blanks.length
  let name := body.takeWhile fun c => c ≠ '=' && c ≠ '['
  guard (name.head?.all startsTarget)
  match body.drop name.length with
  | [] =>
    guard (!name.isEmpty)
    match limit? text with
    | some limit => return ⟨[], .all, limit⟩
    | none => return ⟨text, .all, Level.trace.rank⟩
  | '=' :: level =>
    guard (!name.isEmpty && blanks.isEmpty)
    return ⟨name, .all, ← limitAfter? level⟩
  | _ :: rest =>
    let (reach, rest) ← Reach.parse? rest
    match rest with
    | '=' :: level =>
      guard blanks.isEmpty
      return ⟨name, reach, ← limitAfter? level⟩
    | other =>
      guard (other.all Text.isBlank)
      return ⟨blanks ++ name, reach, Level.trace.rank⟩

------------------------------------------------------------
-- Filters
------------------------------------------------------------

/- Directives, in the order given. -/
structure Filter where
  directives : List Directive
  deriving DecidableEq, Repr

namespace Filter

/- Read a filter. Without directives only errors are shown. -/
def parse?
    (text : String) : Option Filter := do
  let parts :=
    (Text.cut (· = ',') text.toList).filter fun part => !part.isEmpty
  let directives ← parts.mapM Directive.parse?
  if directives.isEmpty then
    return ⟨[⟨[], .all, Level.error.rank⟩]⟩
  else
    return ⟨directives⟩

/- The more specific of two directives. -/
def moreSpecific
    (best : Option Directive)
    (d : Directive) : Option Directive :=
  match best with
  | none => some d
  | some b => if b.yieldsTo d then some d else some b

/- Whether a filter lets an event through. -/
def shows
    (filter : Filter)
    (event : Event) : Bool :=
  let fitting := filter.directives.filter fun d => d.fits event
  match fitting.foldl moreSpecific none with
  | none => false
  | some d => event.level.rank ≤ d.limit

/- The filter used when none is given. -/
def standardText : String :=
  "slotvm::pic=debug,slotvm::function=debug,"
    ++ "slotvm::disasm=info,slotvm_cli=info"

end Filter

------------------------------------------------------------
-- Switches
------------------------------------------------------------

/- Whether a text is one of some words, in any case. -/
def isWord
    (words : List String)
    (text : List Char) : Bool :=
  words.any fun word => Text.sameLetters word.toList text

/- Whether a switch turns tracing on. -/
def isEnabled
    (raw : String) : Bool :=
  let text := Text.trim raw.toList
  !text.isEmpty && !isWord ["0", "false", "off"] text

/- The filter text in a switch that says more than on or off. -/
def filterText?
    (raw : String) : Option String :=
  let text := Text.trim raw.toList
  if text.isEmpty || isWord ["1", "true", "on"] text then
    none
  else
    some (String.ofList text)

/-
  The filter chosen by a switch and a fallback text, none when
  tracing is off. A text that is no filter means the standard
  one.
-/
def chosenFilter
    (toggle fallback : Option String) : Option Filter := do
  let raw ← toggle
  if isEnabled raw then
    let chosen := (filterText? raw <|> fallback).bind Filter.parse?
    chosen <|> Filter.parse? Filter.standardText
  else
    none

end Trace

end RegisterVM
