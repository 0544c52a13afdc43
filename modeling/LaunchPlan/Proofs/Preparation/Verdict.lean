import LaunchPlan.Proofs.Network.Search
import LaunchPlan.Proofs.Preparation.Machine
import LaunchPlan.Proofs.Preparation.Outcome

/-!
What a preparation comes to that leaves its host alone. Main statements: `prepare_verdict`, the
first demand that is not met decides, in the order machine, boot image, disk image, port of the
serial line, port of SSH, and `Verdict.succeeds_iff`, if all are met there is a launch.
-/

namespace LaunchPlan

namespace Preparation

/-- A stage passes and leaves its host alone, exactly if a demand is met. Otherwise it fails, and as
was foreseen. -/
inductive Decides {α : Type} (demand : Prop) (foreseen : Failure → Prop) (s : Progress) :
    Ending α → Prop
  | passed {a : α} {t : Progress} (met : demand) (host : t.host = s.host) :
      Decides demand foreseen s (.ok a t)
  | failed {e : Failure} {t : Progress} (unmet : ¬demand) (failure : foreseen e) :
      Decides demand foreseen s (.error e t)

namespace Decides

variable {α β : Type} {demand other : Prop} {foreseen : Failure → Prop} {s : Progress} {r : Ending α}

theorem map (h : Decides demand foreseen s r) (f : α → β) :
    Decides demand foreseen s (Ending.map f r) := by
  cases h with
  | passed met host => exact .passed met host
  | failed unmet failure => exact .failed unmet failure

theorem congr (same : demand ↔ other) (h : Decides demand foreseen s r) :
    Decides other foreseen s r := by
  cases h with
  | passed met host => exact .passed (same.1 met) host
  | failed unmet failure => exact .failed (fun met => unmet (same.2 met)) failure

end Decides

/-- What the choices of the two files demand for a machine, and how they fail if it is not met. -/
structure Demands where
  boot : String → Prop
  image : String → Prop
  bootFailure : Failure → Prop
  imageFailure : Failure → Prop

/-- What a preparation comes to, by the first demand that is not met. -/
inductive Verdict (h : Host) (o : Options) (demands : Demands) : Except Failure Launch → Prop
  | unfit (off : o.uboot = false) (given : o.overlay.isSome = true) :
      Verdict h o demands (.error (.config .overlayWithoutUboot))
  | machineless {e : Failure} (fits : o.uboot = true ∨ o.overlay = none)
      (less : Machineless h o e) : Verdict h o demands (.error e)
  | bootless {machine : String} {e : Failure} (fits : o.uboot = true ∨ o.overlay = none)
      (known : IsMachine h o machine) (unmet : ¬demands.boot machine)
      (failure : demands.bootFailure e) : Verdict h o demands (.error e)
  | imageless {machine : String} {e : Failure} (fits : o.uboot = true ∨ o.overlay = none)
      (known : IsMachine h o machine) (boot : demands.boot machine)
      (unmet : ¬demands.image machine) (failure : demands.imageFailure e) :
      Verdict h o demands (.error e)
  | consoleless {machine : String} (fits : o.uboot = true ∨ o.overlay = none)
      (known : IsMachine h o machine) (boot : demands.boot machine) (image : demands.image machine)
      (full : ¬Port.HasFree h.held Port.serialStart) :
      Verdict h o demands (.error (.portExhausted 8990 9000))
  | unreachable {machine : String} (fits : o.uboot = true ∨ o.overlay = none)
      (known : IsMachine h o machine) (boot : demands.boot machine) (image : demands.image machine)
      (serial : Port.HasFree h.held Port.serialStart)
      (full : ¬Port.HasFree h.held Port.sshStart) :
      Verdict h o demands (.error (.portExhausted 2222 2232))
  | launched {launch : Launch} (fits : o.uboot = true ∨ o.overlay = none)
      (known : IsMachine h o launch.machine) (boot : demands.boot launch.machine)
      (image : demands.image launch.machine) (serial : Port.HasFree h.held Port.serialStart)
      (ssh : Port.HasFree h.held Port.sshStart) : Verdict h o demands (.ok launch)

variable {probe : Probe} {o : Options} {h : Host} {s : Progress} {demands : Demands}

theorem complete_verdict {machine : String} {bootImage : BootImage} {image : Path}
    (fits : o.uboot = true ∨ o.overlay = none) (known : IsMachine h o machine)
    (host : s.host = h) (boots : demands.boot machine) (images : demands.image machine) :
    Verdict h o demands
      (Ending.outcome (complete probe o machine bootImage image s)).result := by
  have hpair := Port.pair_outcome h.held
  rw [complete_apply, host]
  generalize Port.pair h.held = ports at hpair ⊢
  cases hpair with
  | serial full => exact .consoleless fits known boots images full
  | ssh serial full => exact .unreachable fits known boots images serial full
  | both serial ssh => exact .launched fits known boots images serial ssh

/-- The first demand that is not met decides, if the two stages that choose files decide theirs. -/
theorem prepare_verdict
    (boot : ∀ machine, IsMachine h o machine → Decides (demands.boot machine) demands.bootFailure
      h.begin (chooseBootImage o ⟨o.dir, machine⟩ h.begin))
    (image : ∀ machine (s : Progress), IsMachine h o machine → s.host = h →
      Decides (demands.image machine) demands.imageFailure s
        (chooseImage o ⟨o.dir, machine⟩ s)) :
    Verdict h o demands (h.run (prepare probe o)).result := by
  rw [Host.run_eq]
  generalize hend : prepare probe o h.begin = r
  cases prepare_outcome hend with
  | refused hoff hgiven => exact .unfit hoff hgiven
  | unknownMachine hfits hunknown => exact .machineless hfits (machineOf_error_iff.1 hunknown)
  | bootFailed hfits hknown hboot =>
    have hmachine := machineOf_ok_iff.1 hknown
    have hdecides := boot _ hmachine
    rw [hboot] at hdecides
    cases hdecides with
    | failed unmet failure => exact .bootless hfits hmachine unmet failure
  | imageFailed hfits hknown hboot hdisk =>
    have hmachine := machineOf_ok_iff.1 hknown
    have hdecides := boot _ hmachine
    rw [hboot] at hdecides
    cases hdecides with
    | passed met host =>
      have himage := image _ _ hmachine host
      rw [hdisk] at himage
      cases himage with
      | failed unmet failure => exact .imageless hfits hmachine met unmet failure
  | completed hfits hknown hboot hdisk =>
    have hmachine := machineOf_ok_iff.1 hknown
    have hdecides := boot _ hmachine
    rw [hboot] at hdecides
    cases hdecides with
    | passed met host =>
      have himage := image _ _ hmachine host
      rw [hdisk] at himage
      cases himage with
      | passed meets host' => exact complete_verdict hfits hmachine (host'.trans host) met meets

/-- All demands are met. -/
def Demands.AreMet (demands : Demands) (h : Host) (o : Options) : Prop :=
  (o.uboot = true ∨ o.overlay = none) ∧
    ∃ machine, IsMachine h o machine ∧ demands.boot machine ∧ demands.image machine ∧
      Port.HasFree h.held Port.serialStart ∧ Port.HasFree h.held Port.sshStart

theorem IsMachine.unique {machine other : String} (known : IsMachine h o machine)
    (known' : IsMachine h o other) : machine = other :=
  Except.ok.inj ((machineOf_ok_iff.2 known).symm.trans (machineOf_ok_iff.2 known'))

theorem Verdict.succeeds_iff {result : Except Failure Launch} (verdict : Verdict h o demands result) :
    (∃ launch, result = .ok launch) ↔ demands.AreMet h o := by
  constructor
  · rintro ⟨launch, rfl⟩
    cases verdict with
    | launched fits known boot image serial ssh =>
      exact ⟨fits, launch.machine, known, boot, image, serial, ssh⟩
  · rintro ⟨hfits, machine, hmachine, hboot, himage, hserial, hssh⟩
    cases verdict with
    | unfit off given =>
      rcases hfits with hon | hplain
      · cases off.symm.trans hon
      · simp [hplain] at given
    | machineless _ less => exact absurd ⟨machine, hmachine⟩ less.unknown
    | bootless _ known unmet =>
      cases known.unique hmachine
      exact absurd hboot unmet
    | imageless _ known _ unmet =>
      cases known.unique hmachine
      exact absurd himage unmet
    | consoleless _ _ _ _ full => exact absurd hserial full
    | unreachable _ _ _ _ _ full => exact absurd hssh full
    | launched => exact ⟨_, rfl⟩

end Preparation

end LaunchPlan
