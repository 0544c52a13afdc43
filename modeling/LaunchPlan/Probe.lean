import LaunchPlan.Event
import LaunchPlan.Host

/-!
Whether the host can accelerate the guest. A program of the host is asked; whatever keeps it from
saying yes counts as no.
-/

namespace LaunchPlan

structure ProbeReport where
  available : Bool
  events : List Event
  deriving DecidableEq

/-- A way to find out whether the host can accelerate the guest. -/
abbrev Probe := Host → ProbeReport

namespace Probe

/-- An answer known beforehand. -/
def known (available : Bool) : Probe := fun _ => ⟨available, []⟩

/-- Ask the host's own program: only one that runs and ends with status zero says yes. -/
def program : Probe := fun h =>
  match h.findProgram probeProgram with
  | .error fault => ⟨false, [.probeMissing fault]⟩
  | .ok (.exits 0) => ⟨true, []⟩
  | .ok (.exits n) => ⟨false, [.probeRefused (.code n)]⟩
  | .ok .killed => ⟨false, [.probeRefused .killed]⟩
  | .ok (.unstartable fault) => ⟨false, [.probeUnstartable fault]⟩

end Probe

end LaunchPlan
