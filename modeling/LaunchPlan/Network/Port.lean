/-!
TCP ports, which are held by one listener each, and the search for a free one. It tests ten ports one
after the other, fewer at the top of the range. Main statement: `mem_window_iff`, which ports these
are.
-/

namespace LaunchPlan

abbrev Port := UInt16

namespace Port

def windowSize : Nat := 10

/-- The first port tried for the guest's serial console. -/
def serialStart : Port := 8990

/-- The first port tried for the forward to the guest's SSH port. -/
def sshStart : Port := 2222

/-- The port of the debugger, on the host and in the guest. -/
def debugger : Port := 2159

/-- The first port that an ordinary user can bind. -/
def firstUnreserved : Port := 1024

inductive BindFault where
  /-- The port is kept for the system. -/
  | reserved
  | inUse
  deriving DecidableEq

def BindFault.reason : BindFault → String
  | .reserved => "Permission denied (os error 13)"
  | .inUse => "Address already in use (os error 98)"

/-- What keeps a port from being bound while others are held. Binding port zero leaves the choice to
the host. -/
def bindFault? (held : List Port) (p : Port) : Option BindFault :=
  if p = 0 then none
  else if p < firstUnreserved then some .reserved
  else if held.contains p then some .inUse
  else none

/-- The ports that are held when `ports` are bound in turn, up to the first that cannot be. -/
def hold (held : List Port) : List Port → List Port × Option BindFault
  | [] => (held, none)
  | p :: rest =>
    match bindFault? held p with
    | some fault => (held, some fault)
    | none => hold (p :: held) rest

/-- The ports that are held when nothing listens on `ports` any more. -/
def release (held ports : List Port) : List Port := held.filter fun p => !ports.contains p

def window (start : Port) : List Port :=
  (List.range (min windowSize (UInt16.size - start.toNat))).map fun i =>
    UInt16.ofNat (start.toNat + i)

/-- The end of the window that is named when it holds no free port. -/
def windowEnd (start : Port) : Port :=
  UInt16.ofNat (min (start.toNat + windowSize) (UInt16.size - 1))

def isFree (held : List Port) (p : Port) : Bool := (bindFault? held p).isNone

/-- The first port that a test says is free. The test may have effects, and each port it says no to is
handed to `skip`. -/
def firstFree {m : Type → Type} [Monad m] (test : Port → m Bool) (skip : Port → m Unit) :
    List Port → m (Option Port)
  | [] => return none
  | p :: rest => do
    if ← test p then return some p
    skip p
    firstFree test skip rest

theorem mem_window_iff {start p : Port} :
    p ∈ window start ↔ start.toNat ≤ p.toNat ∧ p.toNat < start.toNat + windowSize := by
  have hs := start.toNat_lt
  have hp := p.toNat_lt
  simp only [window, List.mem_map, List.mem_range, windowSize, UInt16.size]
  constructor
  · rintro ⟨i, hi, rfl⟩
    rw [UInt16.toNat_ofNat']
    omega
  · rintro ⟨hle, hlt⟩
    refine ⟨p.toNat - start.toNat, by omega, ?_⟩
    apply UInt16.toNat_inj.1
    rw [UInt16.toNat_ofNat']
    omega

end Port

end LaunchPlan
