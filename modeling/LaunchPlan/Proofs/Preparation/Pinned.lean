import LaunchPlan.Proofs.Overlay.Detection
import LaunchPlan.Proofs.Overlay.Repeat

/-!
A machine that is found, and the same machine given. Main statement: `detection_pins`, a run that
finds its machine is the run that is given it, and one that does not find any has done nothing.
-/

namespace LaunchPlan

namespace Preparation

/-- A run that is to find its machine and finds it is in every respect the run that is given it. One
that does not find it has done nothing. It ends with a fault of configuration, which says why, unless
the directory is there but cannot be listed: then it ends with what kept it from being listed. -/
theorem detection_pins (probe : Probe) (o : Options) (h : Host) (detected : o.machine = .detect)
    (fits : o.uboot = true ∨ o.overlay = none) :
    (∀ machine, Detection h o.dir (.ok machine) →
      h.run (prepare probe o) = h.run (prepare probe (o.pin machine))) ∧
    ((¬∃ machine, Detection h o.dir (.ok machine)) → ∃ e, Detection h o.dir (.error e) ∧
      h.run (prepare probe o) = ⟨.error e, h, .empty⟩ ∧
      ((∃ fault, e = .config fault) ∨ ∃ fault, e = .io fault ∧ Unlistable h o.dir fault)) ∧
    (∀ fault, Unlistable h o.dir fault →
      h.run (prepare probe o) = ⟨.error (.io fault), h, .empty⟩) := by
  have hmachine : machineOf h o = soleMachine h o.dir := by simp only [machineOf, detected]
  have hprepare : prepare probe o h.begin = _ := prepare_apply h.begin fits
  have hfails {e : Failure} (detection : Detection h o.dir (.error e)) :
      h.run (prepare probe o) = ⟨.error e, h, .empty⟩ := by
    have hunknown : machineOf h.begin.host o = .error e := hmachine.trans detection.soleMachine_eq
    rw [Host.run_eq, hprepare, hunknown]
    rfl
  refine ⟨?found, ?unknown, ?unlistable⟩
  case found =>
    intro machine hdetection
    have hknown : machineOf h.begin.host o = .ok machine :=
      hmachine.trans hdetection.soleMachine_eq
    have hpinned : prepare probe o h.begin = prepare probe (o.pin machine) h.begin := by
      rw [hprepare, hknown]
      exact (prepare_pin h.begin fits).symm
    rw [Host.run_eq, Host.run_eq, hpinned]
  case unknown =>
    intro hnone
    obtain ⟨result, hdetection⟩ := exists_detection h o.dir
    cases result with
    | ok machine => exact absurd ⟨machine, hdetection⟩ hnone
    | error e =>
      have hless : Machineless h o e := ⟨detected, hdetection⟩
      exact ⟨e, hdetection, hfails hdetection, hless.failure⟩
  case unlistable => exact fun fault hunlistable => hfails (detection_io_iff.2 hunlistable)

end Preparation

namespace Sample

/-- A host on which a link leads to a directory whose only entry is a hidden link to nowhere. -/
def veiled : Host :=
  host (files [(place ["l"], .link (.ofString "e")), (place ["e"], .directory),
    (place ["e", ".m"], .link (.ofString "nowhere"))] (by decide +kernel))

/-- The same host, but the directory cannot be opened. -/
def guarded : Host :=
  { veiled with
    files := { veiled.files with bars := [(place ["e"], .closed .permissionDenied)] } }

/-- The sample options for a plain dry run, with the machine left to be found behind a link. -/
def seeking : Options :=
  { options with machine := .detect, dir := .ofString "/l", overlay := none, dryRun := true }

end Sample

namespace Preparation

theorem detection_pins_sample :
    (Sample.seeking.machine = .detect ∧ Sample.seeking.overlay = none) ∧
      Sample.veiled.run (prepare .program Sample.seeking)
        = Sample.veiled.run (prepare .program (Sample.seeking.pin ".m")) := by
  have hfound : soleMachine Sample.veiled Sample.seeking.dir = .ok ".m" := by decide +kernel
  have hpins := detection_pins .program Sample.seeking Sample.veiled rfl (.inr rfl)
  exact ⟨⟨rfl, rfl⟩, hpins.1 ".m" (soleMachine_eq_iff.1 hfound)⟩

/-- In a directory that cannot be listed the only entry is not found, and the run fails that would
come to a launch with its name given. -/
theorem detection_fails_unlistable :
    ¬∀ (probe : Probe) (o : Options) (h : Host) (directory : Location) (name : Name)
      (machine : String), o.machine = .detect → (o.uboot = true ∨ o.overlay = none) →
      h.files.follow h.cwd o.dir = .found directory → h.files.get? directory = some .directory →
      h.files.IsSoleEntry directory name → Text.decode? name = some machine →
      h.run (prepare probe o) = h.run (prepare probe (o.pin machine)) := by
  intro hclaim
  have hsole : Sample.guarded.files.IsSoleEntry (Sample.place ["e"]) (Text.encode ".m") :=
    FileSystem.isSoleEntry_iff.2 (by decide +kernel)
  have hsame := hclaim .program Sample.seeking Sample.guarded (Sample.place ["e"])
    (Text.encode ".m") ".m" rfl (.inr rfl) (by decide +kernel) (by decide +kernel) hsole
    (by decide +kernel)
  have hresult := congrArg Outcome.result hsame
  revert hresult
  decide +kernel

end Preparation

end LaunchPlan
