import RegisterVM.Report.Counters
import RegisterVM.Simulation.Basic

/-
  The report on a simulation as a JSON document.

  Key definitions include:
    * `SimulationReport.json`
-/

namespace RegisterVM

/- A simulation report as a document. -/
def SimulationReport.json
    (r : SimulationReport) : Json :=
  .object
    [("pattern", .string r.pattern.text),
     ("classes", .count r.classes),
     ("calls", .count r.calls),
     ("checksum", .number r.checksum.toInt),
     ("config", r.tuning.json),
     ("dispatch", r.dispatch.json),
     ("summary", r.summary.json),
     ("sites", .list (r.sites.map SiteReport.json))]

end RegisterVM
