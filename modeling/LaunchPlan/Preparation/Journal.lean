import LaunchPlan.Event

/-!
The journal of a preparation: what it logged, what it printed and how often it asked its probe.
-/

namespace LaunchPlan

/-- A copy, as a dry run announces it. -/
structure PlannedCopy where
  source : Path
  target : Path
  deriving DecidableEq

/-- The line that announces a copy. -/
def PlannedCopy.line (c : PlannedCopy) : String :=
  "cp " ++ c.source.display ++ " " ++ c.target.display ++ "\n"

/-- What a preparation leaves behind besides its result. -/
structure Journal where
  events : List Event
  printed : List PlannedCopy
  probeCalls : Nat
  deriving DecidableEq

def Journal.empty : Journal := ⟨[], [], 0⟩

def Journal.printedText (j : Journal) : String := String.join (j.printed.map PlannedCopy.line)

end LaunchPlan
