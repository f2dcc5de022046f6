import RegisterVM.Site.Route
import RegisterVM.Site.Tuning

/-
  The state of a call site: a few remembered routes, most recent
  first, and the counters that decide how many.

  A site starts with two active entries. Sustained misses over
  its lifetime counters promote it to four; a promoted site that
  misses too much of a whole window is demoted to two and frozen
  for some windows, so that it cannot swing back at once.

  Three steps act on a site: an access, which looks a key up and
  counts a hit or a miss; an insertion; and a cold call, which
  bypasses the entries.

  Key definitions include:
    * `Entry`
    * `SiteState`
    * `SiteState.lookup`
    * `SiteState.recordHit`
    * `SiteState.recordMiss`
    * `SiteState.access`
    * `SiteState.insert`
    * `SiteState.coldCall`
-/

namespace RegisterVM

------------------------------------------------------------
-- State
------------------------------------------------------------

/- Entries of a promoted site. -/
def maxEntries : Nat :=
  4

/- Entries of a fresh or demoted site. -/
def baseEntries : Nat :=
  2

/- A remembered route. -/
structure Entry where
  key : Key
  route : Route
  deriving Repr, Inhabited

/-
  The state of a site. The occupied entries are listed, most
  recent first; there are never more of them than active ones.
-/
structure SiteState where
  entries : List Entry := []
  active : Nat := baseEntries
  promoted : Bool := false
  /- Windows still to pass before a promotion may happen. -/
  freeze : Nat := 0
  lifetimeAccesses : Nat := 0
  lifetimeMisses : Nat := 0
  windowAccesses : Nat := 0
  windowMisses : Nat := 0
  hits : Nat := 0
  misses : Nat := 0
  cold : Nat := 0
  promotions : Nat := 0
  demotions : Nat := 0
  deriving Repr, Inhabited

/- A change of the number of active entries. -/
inductive SiteNote where
  | promoted (accesses misses : Nat)
  | demoted (freeze : Nat)
  deriving DecidableEq, Repr

namespace SiteState

/- The state of a fresh site. -/
def fresh
    (t : Tuning) : SiteState :=
  { active := if t.alwaysFour then maxEntries else baseEntries }

------------------------------------------------------------
-- Entries
------------------------------------------------------------

/- The remembered route of a key. -/
def find?
    (s : SiteState)
    (key : Key) : Option Entry :=
  s.entries.find? fun entry => entry.key == key

/- The entries of other keys. -/
def others
    (s : SiteState)
    (key : Key) : List Entry :=
  s.entries.filter fun entry => entry.key != key

/- Find the route of a key and move it to the front. -/
def lookup
    (s : SiteState)
    (key : Key) : Option Route × SiteState :=
  match s.find? key with
  | none => (none, s)
  | some entry =>
    (some entry.route, { s with entries := entry :: s.others key })

/-
  Put an entry at the front. It takes the place of an entry of
  its key; otherwise, in a full site, that of the oldest.
-/
def insert
    (s : SiteState)
    (entry : Entry) : SiteState :=
  match s.find? entry.key with
  | some _ => { s with entries := entry :: s.others entry.key }
  | none =>
    { s with entries := entry :: s.entries.take (s.active - 1) }

------------------------------------------------------------
-- Counters
------------------------------------------------------------

/- Count up to the cap of a tuning. -/
def capped
    (t : Tuning)
    (count : Nat) : Nat :=
  min (count + 1) t.counterCap.toNat

/- Return to two entries and freeze. -/
def demote
    (s : SiteState)
    (t : Tuning) : SiteState :=
  { s with
    promoted := false
    active := baseEntries
    entries := s.entries.take baseEntries
    freeze := t.freezeWindows.toNat
    lifetimeAccesses := 0
    lifetimeMisses := 0
    demotions := s.demotions + 1 }

/-
  Count one access in the current window. When the window is
  full a frozen site thaws by one window, and otherwise a
  promoted site with too many misses is demoted.
-/
def advanceWindow
    (s : SiteState)
    (t : Tuning)
    (miss : Bool) : Option SiteNote × SiteState :=
  if t.windowedDemotion then
    let accesses := s.windowAccesses + 1
    let misses := s.windowMisses + if miss then 1 else 0
    if accesses < t.window.toNat then
      (none, { s with windowAccesses := accesses, windowMisses := misses })
    else
      let s := { s with windowAccesses := 0, windowMisses := 0 }
      if 0 < s.freeze then
        (none, { s with freeze := s.freeze - 1 })
      else if s.promoted
          ∧ t.demoteMissPct.toNat * accesses ≤ misses * 100 then
        let s := s.demote t
        (some (.demoted s.freeze), s)
      else
        (none, s)
  else
    (none, s)

/- Count a hit. -/
def recordHit
    (s : SiteState)
    (t : Tuning) : List SiteNote × SiteState :=
  let s := { s with hits := s.hits + 1 }
  if t.adapts then
    let s :=
      { s with lifetimeAccesses := capped t s.lifetimeAccesses }
    let (note, s) := s.advanceWindow t false
    (note.toList, s)
  else
    ([], s)

/-
  Consider a promotion: after enough accesses, and unless the
  site is promoted or frozen, compare the share of misses with
  the limit and start counting anew.
-/
def considerPromotion
    (s : SiteState)
    (t : Tuning) : Option SiteNote × SiteState :=
  if s.promoted ∨ 0 < s.freeze
      ∨ s.lifetimeAccesses < t.promoteAfter.toNat then
    (none, s)
  else
    let checked := { s with lifetimeAccesses := 0, lifetimeMisses := 0 }
    if t.promoteMissPct.toNat * s.lifetimeAccesses
        < s.lifetimeMisses * 100 then
      (some (.promoted s.lifetimeAccesses s.lifetimeMisses),
        { checked with
          promoted := true
          active := maxEntries
          promotions := s.promotions + 1 })
    else
      (none, checked)

/- Count a miss. -/
def recordMiss
    (s : SiteState)
    (t : Tuning) : List SiteNote × SiteState :=
  let s := { s with misses := s.misses + 1 }
  if t.adapts then
    let s :=
      { s with
        lifetimeAccesses := capped t s.lifetimeAccesses
        lifetimeMisses := capped t s.lifetimeMisses }
    let (demotion, s) := s.advanceWindow t true
    let (promotion, s) := s.considerPromotion t
    (demotion.toList ++ promotion.toList, s)
  else
    ([], s)

------------------------------------------------------------
-- Steps
------------------------------------------------------------

/- The outcome of an access. -/
structure Access where
  route : Option Route
  notes : List SiteNote

/- Look a key up and count a hit or a miss. -/
def access
    (s : SiteState)
    (t : Tuning)
    (key : Key) : Access × SiteState :=
  match s.lookup key with
  | (some route, s) =>
    let (notes, s) := s.recordHit t
    (⟨some route, notes⟩, s)
  | (none, s) =>
    let (notes, s) := s.recordMiss t
    (⟨none, notes⟩, s)

/- Count a call that bypasses the entries. -/
def coldCall
    (s : SiteState) : SiteState :=
  { s with cold := s.cold + 1 }

/- The kinds of the active entries, front first. -/
def kinds
    (s : SiteState) : List (Option String) :=
  s.entries.map (fun entry => some entry.route.kind)
    ++ List.replicate (s.active - s.entries.length) none

end SiteState

end RegisterVM
