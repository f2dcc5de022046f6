import RegisterVM.Site.State

/-
  Counters of call sites as they are reported.

  Key definitions include:
    * `SiteStats`
    * `SiteState.stats`
    * `SiteReport`
    * `Summary`
    * `Summary.ofReports`
-/

namespace RegisterVM

------------------------------------------------------------
-- One site
------------------------------------------------------------

/- The counters of a site at one moment. -/
structure SiteStats where
  hits : Nat := 0
  misses : Nat := 0
  /- Calls that bypassed the entries. -/
  cold : Nat := 0
  promotions : Nat := 0
  demotions : Nat := 0
  activeSlots : Nat := 0
  promoted : Bool := false
  freezeRemaining : Nat := 0
  entries : Nat := 0
  deriving DecidableEq, Repr, Inhabited

namespace SiteStats

/- Calls that went through the entries. -/
def accesses
    (s : SiteStats) : Nat :=
  s.hits + s.misses

/- The share of hits, zero before the first access. -/
def hitRate
    (s : SiteStats) : Binary64 :=
  if s.accesses = 0 then .zero else .ratio s.hits s.accesses

/- The counters as a record. -/
def debug
    (s : SiteStats) : String :=
  s!"CallSiteStats \x7b hits: {s.hits}, misses: {s.misses}, "
    ++ s!"cold: {s.cold}, promotions: {s.promotions}, "
    ++ s!"demotions: {s.demotions}, active_slots: {s.activeSlots}, "
    ++ s!"promoted: {s.promoted}, freeze_remaining: {s.freezeRemaining}, "
    ++ s!"entries: {s.entries} \x7d"

end SiteStats

/- The counters of a site. -/
def SiteState.stats
    (s : SiteState) : SiteStats where
  hits := s.hits
  misses := s.misses
  cold := s.cold
  promotions := s.promotions
  demotions := s.demotions
  activeSlots := s.active
  promoted := s.promoted
  freezeRemaining := s.freeze
  entries := s.entries.length

------------------------------------------------------------
-- Reports
------------------------------------------------------------

/- The counters of the site at a code offset. -/
structure SiteReport where
  offset : Nat
  method : String
  stats : SiteStats
  deriving DecidableEq, Repr

/- Totals over the sites of a function. -/
structure Summary where
  sites : Nat := 0
  hits : Nat := 0
  misses : Nat := 0
  cold : Nat := 0
  promotedSites : Nat := 0
  deriving DecidableEq, Repr, Inhabited

namespace Summary

/- Add a report to the totals. -/
def add
    (total : Summary)
    (report : SiteReport) : Summary where
  sites := total.sites + 1
  hits := total.hits + report.stats.hits
  misses := total.misses + report.stats.misses
  cold := total.cold + report.stats.cold
  promotedSites :=
    total.promotedSites + if report.stats.promoted then 1 else 0

/- The totals of some reports. -/
def ofReports
    (reports : List SiteReport) : Summary :=
  reports.foldl add {}

end Summary

end RegisterVM
