import RegisterVM.Access
import RegisterVM.Report.Json
import RegisterVM.Settings.Tuning
import RegisterVM.Site.Stats

/-
  Tunings and counters as JSON documents, with their members in
  the order in which they are reported.

  Key definitions include:
    * `Tuning.json`
    * `DispatchStats.json`
    * `SiteStats.json`
    * `SiteReport.json`
    * `Summary.json`
-/

namespace RegisterVM

/- A setting as a document. -/
def Setting.json : Setting → Json
  | flag b => .bool b
  | count n => .count n.toNat

/- A tuning as a document. -/
def Tuning.json
    (t : Tuning) : Json :=
  .object (t.settings.map fun (key, setting) => (key, setting.json))

/- Counts of dispatch work as a document. -/
def DispatchStats.json
    (stats : DispatchStats) : Json :=
  .object
    [("resolutions", .count stats.resolutions),
     ("access_checks", .count stats.accessChecks)]

/- The members of the counters of a site. -/
def SiteStats.members
    (s : SiteStats) : List (String × Json) :=
  [("hits", .count s.hits),
   ("misses", .count s.misses),
   ("cold", .count s.cold),
   ("promotions", .count s.promotions),
   ("demotions", .count s.demotions),
   ("active_slots", .count s.activeSlots),
   ("promoted", .bool s.promoted),
   ("freeze_remaining", .count s.freezeRemaining),
   ("entries", .count s.entries)]

/- The counters of a site as a document. -/
def SiteStats.json
    (s : SiteStats) : Json :=
  .object s.members

/- A report on a site as one flat document. -/
def SiteReport.json
    (report : SiteReport) : Json :=
  .object
    ([("offset", .count report.offset),
      ("method", .string report.method)] ++ report.stats.members)

/- Totals as a document. -/
def Summary.json
    (s : Summary) : Json :=
  .object
    [("sites", .count s.sites),
     ("hits", .count s.hits),
     ("misses", .count s.misses),
     ("cold", .count s.cold),
     ("promoted_sites", .count s.promotedSites)]

end RegisterVM
