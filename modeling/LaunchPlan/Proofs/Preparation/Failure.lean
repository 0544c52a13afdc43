import LaunchPlan.Proofs.Preparation.Outcome

/-!
How a preparation fails. Main statements: `chooseBootImage_failure` and `chooseImage_failure`, a
stage that fails leaves its host as it was and blames its own artifact, and `prepare_config_iff`,
what is wrong with the options shows before anything is chosen.
-/

namespace LaunchPlan

/-- The failures of a stage that looks for one artifact. -/
inductive Failure.IsOf (artifact : Artifact) : Failure → Prop
  | missing (path : Path) : IsOf artifact (.missingArtifact artifact path)
  | copy (source target : Path) (fault : Fault) : IsOf artifact (.copy source target fault)
  | io (fault : Fault) : IsOf artifact (.io fault)

theorem Failure.IsOf.not_config {artifact : Artifact} {e : Failure} (h : e.IsOf artifact)
    (fault : ConfigFault) : e ≠ .config fault := by
  rintro rfl
  cases h

namespace Preparation

variable {probe : Probe} {o : Options} {d : Deployment} {s t : Progress} {artifact : Artifact}
  {e : Failure}

theorem OwnOutcome.failure {source sidecar overlay : Path} {dryRun : Bool}
    (h : OwnOutcome artifact source sidecar overlay dryRun s (.error e t)) :
    t.host = s.host ∧ e.IsOf artifact := by
  cases h with
  | lost => exact ⟨rfl, .missing sidecar⟩
  | sourceMissing => exact ⟨rfl, .missing source⟩
  | @copyFailed fault => exact ⟨rfl, .copy source sidecar fault⟩

theorem ownStage_failure {lookup : Except Fault Path} {sidecar overlay : Path} {dryRun : Bool}
    (h : ownStage artifact lookup sidecar overlay dryRun s = .error e t) :
    t.host = s.host ∧ e.IsOf artifact := by
  cases lookup with
  | ok source => exact (ownArtifact_outcome h).failure
  | error fault =>
    cases h
    exact ⟨rfl, .io fault⟩

theorem plainStage_failure {lookup : Except Fault Path} {dryRun : Bool}
    (h : plainStage artifact lookup dryRun s = .error e t) : t.host = s.host ∧ e.IsOf artifact := by
  cases lookup with
  | error fault =>
    cases h
    exact ⟨rfl, .io fault⟩
  | ok path =>
    simp only [plainStage] at h
    split at h
    · cases h
      exact ⟨rfl, .missing path⟩
    · cases h

theorem chooseBootImage_failure (h : chooseBootImage o d s = .error e t) :
    t.host = s.host ∧ (e.IsOf .ubootImage ∨ e.IsOf .kernelImage) := by
  generalize hrun : (.error e t : Ending BootImage) = r at h
  cases chooseBootImage_run h with
  | firmware => cases hrun
  | kernel => exact (plainStage_failure (Ending.map_error hrun.symm)).imp_right .inr
  | plainRom => exact (plainStage_failure (Ending.map_error hrun.symm)).imp_right .inl
  | ownRom => exact (ownStage_failure (Ending.map_error hrun.symm)).imp_right .inl

theorem chooseImage_failure (h : chooseImage o d s = .error e t) :
    t.host = s.host ∧ e.IsOf .osImage := by
  generalize hrun : (.error e t : Ending Path) = r at h
  cases chooseImage_run h with
  | plain => exact plainStage_failure hrun.symm
  | own => exact ownStage_failure hrun.symm

/-- The last stage fails for want of a port only. -/
theorem complete_failure {machine : String} {bootImage : BootImage} {image : Path}
    (h : complete probe o machine bootImage image s = .error e t) :
    ∃ start stop, e = .portExhausted start stop := by
  rw [complete_apply] at h
  cases hports : Port.pair s.host.held with
  | error other =>
    simp only [hports] at h
    cases h
    exact Port.pair_error hports
  | ok ports => simp [hports] at h

/-- The options do not fit each other, or they leave the machine to be found and it cannot be. -/
def IsMisconfigured (h : Host) (o : Options) (fault : ConfigFault) : Prop :=
  if o.uboot = true ∨ o.overlay = none then machineOf h o = .error (.config fault)
  else fault = .overlayWithoutUboot

theorem prepare_config_iff {h : Host} {fault : ConfigFault} :
    (h.run (prepare probe o)).result = .error (.config fault) ↔ IsMisconfigured h o fault := by
  rw [Host.run_eq]
  generalize hend : prepare probe o h.begin = r
  unfold IsMisconfigured
  cases prepare_outcome hend with
  | refused hoff hgiven =>
    obtain ⟨overlay, hsome⟩ := Option.isSome_iff_exists.1 hgiven
    simp [Ending.outcome, hoff, hsome, eq_comm]
  | unknownMachine hfits hunknown =>
    rw [if_pos hfits, show machineOf h o = _ from hunknown]
    simp [Ending.outcome]
  | @bootFailed machine e _ hfits hknown hboot =>
    rw [if_pos hfits, show machineOf h o = _ from hknown]
    have hother : ∀ fault, e ≠ .config fault := by
      rcases (chooseBootImage_failure hboot).2 with hrom | hkernel
      · exact hrom.not_config
      · exact hkernel.not_config
    simp [Ending.outcome, hother fault]
  | imageFailed hfits hknown hboot hdisk =>
    rw [if_pos hfits, show machineOf h o = _ from hknown]
    simp [Ending.outcome, (chooseImage_failure hdisk).2.not_config fault]
  | @completed machine bootImage image t u hfits hknown =>
    rw [if_pos hfits, show machineOf h o = _ from hknown]
    generalize hlast : complete probe o machine bootImage image u = last
    cases last with
    | ok launch v => simp [Ending.outcome]
    | error e v =>
      obtain ⟨start, stop, rfl⟩ := complete_failure hlast
      simp [Ending.outcome]

end Preparation

end LaunchPlan
