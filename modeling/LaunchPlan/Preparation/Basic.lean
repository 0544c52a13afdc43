import LaunchPlan.Host
import LaunchPlan.Error
import LaunchPlan.Preparation.Journal

/-!
Preparations of a launch as computations on a host. A step that fails ends the preparation, and
what was done until then stays done and stays in the journal.
-/

namespace LaunchPlan

structure Progress where
  host : Host
  journal : Journal

/-- A step of a preparation. A step that stops keeps what was done before. -/
abbrev Preparation := EStateM Failure Progress

namespace Preparation

def host : Preparation Host := return (← get).host

def record (events : List Event) : Preparation Unit :=
  modify fun s => { s with journal.events := s.journal.events ++ events }

def print (c : PlannedCopy) : Preparation Unit :=
  modify fun s => { s with journal.printed := s.journal.printed ++ [c] }

def setFiles (files : FileSystem) : Preparation Unit :=
  modify fun s => { s with host.files := files }

def ofIo {α : Type} (r : Except Fault α) : Preparation α :=
  match r with
  | .ok a => pure a
  | .error fault => throw (.io fault)

def roll (throwDice : Dice → MacAddress × Dice) : Preparation MacAddress := do
  let (m, dice) := throwDice (← host).dice
  modify fun s => { s with host.dice := dice }
  return m

end Preparation

/-- A preparation from its end: what it came to, the host it left, and its journal. -/
structure Outcome (α : Type) where
  result : Except Failure α
  host : Host
  journal : Journal

/-- A step on a host, with an empty journal. -/
def Host.run {α : Type} (h : Host) (step : Preparation α) : Outcome α :=
  match step ⟨h, .empty⟩ with
  | .ok a s => ⟨.ok a, s.host, s.journal⟩
  | .error e s => ⟨.error e, s.host, s.journal⟩

end LaunchPlan
