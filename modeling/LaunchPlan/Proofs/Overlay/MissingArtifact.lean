import LaunchPlan.Proofs.Overlay.FirstUse
import LaunchPlan.Proofs.Preparation.Failure
import LaunchPlan.Proofs.Preparation.Machine

/-!
What a preparation leaves behind when an artifact is missing. Main statement:
`missingArtifact_changes_iff`, nothing, unless the disk image is missed after the first copy of the
U-Boot image has been made.
-/

namespace LaunchPlan

namespace Preparation

variable {probe : Probe} {o : Options} {d : Deployment} {s : Progress}

/-- If a failure is a missing artifact, it is this one. -/
def Misses (artifact : Artifact) (e : Failure) : Prop :=
  ∀ other path, e = .missingArtifact other path → other = artifact

theorem Misses.eq {artifact other : Artifact} {path : Path}
    (h : Misses artifact (.missingArtifact other path)) : other = artifact :=
  h other path rfl

theorem misses_of_isOf {artifact : Artifact} {e : Failure} (h : e.IsOf artifact) :
    Misses artifact e := by
  rintro other path rfl
  cases h
  rfl

theorem chooseBootImage_error {e : Failure} {t : Progress}
    (h : chooseBootImage o d s = .error e t) :
    t.host = s.host ∧ (Misses .ubootImage e ∨ Misses .kernelImage e) :=
  (chooseBootImage_failure h).imp_right (Or.imp misses_of_isOf misses_of_isOf)

theorem chooseImage_error {e : Failure} {t : Progress} (h : chooseImage o d s = .error e t) :
    t.host = s.host ∧ Misses .osImage e :=
  (chooseImage_failure h).imp_right misses_of_isOf

/-- An artifact can be missed when the boot image is chosen, or when the disk image is. -/
theorem prepare_missing {artifact : Artifact} {path : Path} {t : Progress}
    (h : prepare probe o s = .error (.missingArtifact artifact path) t) :
    ∃ machine, machineOf s.host o = .ok machine ∧
      (chooseBootImage o ⟨o.dir, machine⟩ s = .error (.missingArtifact artifact path) t ∨
        (o.uboot = true ∨ o.overlay = none) ∧ ∃ bootImage u,
          chooseBootImage o ⟨o.dir, machine⟩ s = .ok bootImage u ∧
          chooseImage o ⟨o.dir, machine⟩ u = .error (.missingArtifact artifact path) t) := by
  generalize hrun : (.error (.missingArtifact artifact path) t : Ending Launch) = r at h
  cases prepare_outcome h with
  | refused => cases hrun
  | unknownMachine _ hunknown =>
    cases hrun
    rcases (machineOf_error_iff.1 hunknown).failure with ⟨fault, hfault⟩ | ⟨fault, hfault, -⟩
    · cases hfault
    · cases hfault
  | @bootFailed machine _ _ _ hknown hboot =>
    cases hrun
    exact ⟨machine, hknown, .inl hboot⟩
  | @imageFailed machine bootImage _ u _ hfits hknown hboot hdisk =>
    cases hrun
    exact ⟨machine, hknown, .inr ⟨hfits, bootImage, u, hboot, hdisk⟩⟩
  | completed =>
    obtain ⟨start, stop, hport⟩ := complete_failure hrun.symm
    cases hport

/-- The disk image is what is missing, and it is missed after the first copy of the U-Boot image. -/
structure MissedLate (h : Host) (o : Options) (artifact : Artifact) (overlay : Path) : Prop where
  image : artifact = .osImage
  efi : o.efi = false
  given : o.overlay = some overlay
  fresh : h.isPresent overlay = false
  absent : h.isPresent (romSidecar overlay) = false

/-- A real first use that gets past the boot image has made the copy of the U-Boot image. -/
theorem MissedLate.copies {machine : String} {artifact : Artifact} {overlay : Path}
    {bootImage : BootImage} {t : Progress} (late : MissedLate s.host o artifact overlay)
    (real : o.dryRun = false) (fits : o.uboot = true ∨ o.overlay = none)
    (h : chooseBootImage o ⟨o.dir, machine⟩ s = .ok bootImage t) :
    ∃ place file, FirstRom s.host o machine overlay place file t.host.files := by
  have huboot : o.uboot = true := by simpa [late.given] using fits
  exact (chooseBootImage_firstCopy real late.given huboot late.efi late.absent h).2

theorem chooseBootImage_changes_iff {machine : String} {bootImage : BootImage} {t : Progress}
    (real : o.dryRun = false) (fits : o.uboot = true ∨ o.overlay = none)
    (h : chooseBootImage o ⟨o.dir, machine⟩ s = .ok bootImage t) :
    t.host.files ≠ s.host.files ↔ ∃ overlay, MissedLate s.host o .osImage overlay := by
  constructor
  · intro hchanged
    rcases chooseBootImage_host (o := o) (s := s) ⟨o.dir, machine⟩ with hsame | hmade
    · rw [h, Ending.progress_ok] at hsame
      rw [hsame] at hchanged
      exact absurd rfl hchanged
    · obtain ⟨-, hefi, overlay, _, _, _, hcopy, -⟩ := hmade
      exact ⟨overlay, rfl, hefi, hcopy.given, hcopy.fresh, hcopy.absent⟩
  · rintro ⟨overlay, late⟩
    obtain ⟨place, file, hcopy⟩ := late.copies real fits h
    exact hcopy.changes

/-- A real preparation that misses an artifact changes the files exactly if it misses the disk image
after the first copy of the U-Boot image, and then that copy is what it leaves. -/
theorem missingArtifact_changes_iff (probe : Probe) (o : Options) (h : Host) {artifact : Artifact}
    {path : Path} (real : o.dryRun = false)
    (missing : (h.run (prepare probe o)).result = .error (.missingArtifact artifact path)) :
    let after := (h.run (prepare probe o)).host.files
    (after ≠ h.files ↔ ∃ overlay, MissedLate h o artifact overlay) ∧
    (∀ overlay, MissedLate h o artifact overlay → ∃ machine place file,
      machineOf h o = .ok machine ∧ FirstRom h o machine overlay place file after) := by
  intro after
  have hrun : h.run (prepare probe o) = Ending.outcome (prepare probe o h.begin) := Host.run_eq _ _
  obtain ⟨t, hend⟩ : ∃ t, prepare probe o h.begin = .error (.missingArtifact artifact path) t := by
    rw [hrun] at missing
    exact Ending.exists_of_failure missing
  have hafter : after = t.host.files := by
    show (h.run (prepare probe o)).host.files = _
    rw [hrun, hend]
    rfl
  obtain ⟨machine, hknown, hboot | ⟨hfits, bootImage, u, hboot, hdisk⟩⟩ := prepare_missing hend
  · -- The boot image is missing, and nothing has been copied yet.
    obtain ⟨hhost, hmisses⟩ := chooseBootImage_error hboot
    have hearly : ∀ overlay, ¬MissedLate h o artifact overlay := by
      intro overlay hlate
      have hother : artifact = .ubootImage ∨ artifact = .kernelImage :=
        hmisses.imp Misses.eq Misses.eq
      simp [hlate.image] at hother
    have hsame : after = h.files := by
      rw [hafter, hhost]
      rfl
    refine ⟨iff_of_false (not_not_intro hsame) ?_, ?_⟩
    · rintro ⟨overlay, hlate⟩
      exact hearly overlay hlate
    · intro overlay hlate
      exact absurd hlate (hearly overlay)
  · obtain ⟨hhost, hmisses⟩ := chooseImage_error hdisk
    obtain rfl : artifact = .osImage := hmisses.eq
    rw [hafter, hhost]
    refine ⟨chooseBootImage_changes_iff (s := h.begin) real hfits hboot, ?_⟩
    intro overlay late
    obtain ⟨place, file, hcopy⟩ := late.copies (s := h.begin) real hfits hboot
    exact ⟨machine, place, file, hknown, hcopy⟩

/-- On a deployment without its disk image the first copy of the U-Boot image stays. -/
theorem missingArtifact_changes_sample :
    let run := Sample.imageless.run (prepare (.known false) Sample.options)
    run.result = .error (.missingArtifact .osImage (.ofString "/d/m/i-m.wic")) ∧
      run.host.files ≠ Sample.imageless.files := by
  have hmissing : (Sample.imageless.run (prepare (.known false) Sample.options)).result
      = .error (.missingArtifact .osImage (.ofString "/d/m/i-m.wic")) := by
    decide +kernel
  have hlate : MissedLate Sample.imageless Sample.options .osImage (.ofString "/v") :=
    ⟨rfl, rfl, rfl, by decide +kernel, by decide +kernel⟩
  have hchanges := missingArtifact_changes_iff (.known false) Sample.options Sample.imageless rfl
    hmissing
  exact ⟨hmissing, hchanges.1.2 ⟨_, hlate⟩⟩

theorem missingArtifact_leaves_copy :
    ¬∀ (probe : Probe) (o : Options) (h : Host) (artifact : Artifact) (path : Path),
      o.dryRun = false →
      (h.run (prepare probe o)).result = .error (.missingArtifact artifact path) →
      (h.run (prepare probe o)).host.files = h.files := by
  intro hclaim
  have hmissing : (Sample.imageless.run (prepare (.known false) Sample.options)).result
      = .error (.missingArtifact .osImage (.ofString "/d/m/i-m.wic")) := by
    decide +kernel
  have hsame := hclaim (.known false) Sample.options Sample.imageless _ _ rfl hmissing
  have hcopy := congrArg (·.get? (Sample.place ["v.u-boot.rom"])) hsame
  revert hcopy
  decide +kernel

end Preparation

end LaunchPlan
