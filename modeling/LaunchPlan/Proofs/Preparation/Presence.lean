import LaunchPlan.Proofs.Overlay.FirstUse

/-!
That what a launch is started from is there. A path is looked for when it is chosen, and nothing
that is there goes away later. Main statements: `prepare_present`, for the progress of a
preparation, and `launch_refers_to_present`, for a whole run.
-/

namespace LaunchPlan

namespace Preparation

variable {probe : Probe} {o : Options} {d : Deployment} {s t : Progress}

/-- Nothing excuses a missing artifact: the run is a real one, or its overlay is there. -/
def MustFind (h : Host) (o : Options) : Prop :=
  o.dryRun = false ∨ ∃ overlay, o.overlay = some overlay ∧ h.isPresent overlay = true

theorem MustFind.real {h : Host} (must : MustFind h o) (plain : o.overlay = none) :
    o.dryRun = false := by
  rcases must with hreal | ⟨overlay, hgiven, -⟩
  · exact hreal
  · rw [plain] at hgiven
    cases hgiven

theorem MustFind.there {h : Host} {overlay : Path} (must : MustFind h o)
    (given : o.overlay = some overlay) : o.dryRun = false ∨ h.isPresent overlay = true := by
  rcases must with hreal | ⟨other, hgiven, hthere⟩
  · exact .inl hreal
  · rw [given, Option.some.injEq] at hgiven
    rw [hgiven]
    exact .inr hthere

theorem MustFind.later {h : Host} {files : FileSystem} (must : MustFind h o)
    (grows : h.files.Grows files) : MustFind { h with files } o :=
  must.imp_right fun ⟨overlay, hgiven, hthere⟩ => ⟨overlay, hgiven, grows.isPresent hthere⟩

theorem plainStage_present {artifact : Artifact} {lookup : Except Fault Path} {path : Path}
    (h : plainStage artifact lookup false s = .ok path t) : t.host.isPresent path = true := by
  cases lookup with
  | error fault => cases h
  | ok found =>
    simp only [plainStage] at h
    split at h
    · cases h
    · next hfound =>
      cases h
      simpa [isAmiss] using hfound

theorem ownArtifact_present {artifact : Artifact} {source sidecar overlay own : Path}
    {dryRun : Bool} (must : dryRun = false ∨ s.host.isPresent overlay = true)
    (h : ownArtifact artifact source sidecar overlay dryRun s = .ok own t) :
    t.host.isPresent own = true := by
  cases ownArtifact_outcome h with
  | reused _ hown => exact hown
  | kept _ _ hown => exact hown
  | announced hfresh hdry => simp [hfresh, hdry] at must
  | copied _ _ _ hown hcopy =>
    obtain ⟨place, file, hcopied⟩ := FileSystem.copied_of_copy hown hcopy
    exact hcopied.isPresent_target

theorem ownStage_present {artifact : Artifact} {lookup : Except Fault Path}
    {sidecar overlay own : Path} {dryRun : Bool}
    (must : dryRun = false ∨ s.host.isPresent overlay = true)
    (h : ownStage artifact lookup sidecar overlay dryRun s = .ok own t) :
    t.host.isPresent own = true := by
  cases lookup with
  | error fault => cases h
  | ok source => exact ownArtifact_present must h

theorem chooseBootImage_present {bootImage : BootImage} (must : MustFind s.host o)
    (fits : o.uboot = true ∨ o.overlay = none) (efi : o.efi = false)
    (h : chooseBootImage o d s = .ok bootImage t) : t.host.isPresent bootImage.path = true := by
  generalize hrun : (.ok bootImage t : Ending BootImage) = r at h
  cases chooseBootImage_run h with
  | firmware hefi => simp [efi] at hefi
  | kernel _ hoff =>
    have hplain : o.overlay = none := by simpa [hoff] using fits
    obtain ⟨kernel, hkernel, rfl⟩ := Ending.map_ok hrun.symm
    rw [must.real hplain] at hkernel
    exact plainStage_present hkernel
  | plainRom _ _ hplain =>
    obtain ⟨rom, hrom, rfl⟩ := Ending.map_ok hrun.symm
    rw [must.real hplain] at hrom
    exact plainStage_present hrom
  | ownRom _ _ hgiven =>
    obtain ⟨rom, hrom, rfl⟩ := Ending.map_ok hrun.symm
    exact ownStage_present (must.there hgiven) hrom

theorem chooseImage_present {image : Path} (must : MustFind s.host o)
    (h : chooseImage o d s = .ok image t) : t.host.isPresent image = true := by
  generalize hrun : (.ok image t : Ending Path) = r at h
  cases chooseImage_run h with
  | plain hplain =>
    rw [must.real hplain] at hrun
    exact plainStage_present hrun.symm
  | own hgiven => exact ownStage_present (must.there hgiven) hrun.symm

/-- What a launch is started from is there when its preparation ends. -/
theorem prepare_present {launch : Launch} (must : MustFind s.host o)
    (h : prepare probe o s = .ok launch t) :
    t.host.isPresent launch.image = true ∧
      (o.efi = false → t.host.isPresent launch.bootImage.path = true) := by
  obtain ⟨u, v, stages⟩ := prepare_stages h
  have hlater : MustFind u.host o := by
    rw [stages.booted]
    exact must.later stages.rom.grows
  have hsame (p : Path) : v.host.isPresent p = t.host.isPresent p := by
    rw [stages.host_eq]
    rfl
  refine ⟨?_, fun efi => ?_⟩
  · rw [← hsame]
    exact chooseImage_present hlater stages.disk
  · have hthere : u.host.isPresent launch.bootImage.path = true :=
      chooseBootImage_present must stages.fits efi stages.boot
    rw [stages.booted] at hthere
    rw [← hsame, stages.imaged]
    exact stages.image.grows.isPresent hthere

/-- A run that is not excused from finding its artifacts leaves a host that has all of them. An
overlay is still to be made exactly if one is asked for and is not there. -/
theorem launch_refers_to_present (probe : Probe) (o : Options) (h : Host) {launch : Launch}
    (must : MustFind h o) (decided : (h.run (prepare probe o)).result = .ok launch) :
    let after := (h.run (prepare probe o)).host
    after.isPresent launch.image = true ∧
    (o.efi = false → after.isPresent launch.bootImage.path = true) ∧
    (launch.lacksOverlay after = true ↔
      ∃ overlay, o.overlay = some overlay ∧ after.isPresent overlay = false) := by
  intro after
  obtain ⟨t, hend, hrun⟩ := Host.run_ok decided
  have hafter : after = t.host := congrArg Outcome.host hrun
  obtain ⟨himage, hboot⟩ := prepare_present (s := h.begin) must hend
  rw [hafter]
  refine ⟨himage, hboot, ?_⟩
  obtain ⟨-, _, _, _, _, _, -, -, -, hlast⟩ := prepare_ok hend
  obtain ⟨_, _, -, rfl, -⟩ := complete_ok hlast
  simp [Launch.lacksOverlay, Options.launch, Option.any_eq_true]

/-- A first use of an overlay finds the copies that it has just made, but no overlay yet. -/
theorem launch_refers_to_present_sample :
    let after := (Sample.complete.run (prepare (.known false) Sample.options)).host
    after.isPresent (.ofString "/v.img") = true ∧
      after.isPresent (.ofString "/v.u-boot.rom") = true ∧
      after.isPresent (.ofString "/v") = false := by
  intro after
  have hdecided : (Sample.complete.run (prepare (.known false) Sample.options)).result
      = .ok (Sample.options.launch "m" (.bios (.ofString "/v.u-boot.rom")) (.ofString "/v.img")
        (⟨0x52, 0x54, 0, 0, 0, 1⟩, none) 8990 2222 false) := by
    decide +kernel
  obtain ⟨himage, hboot, hlacks⟩ := launch_refers_to_present (.known false) Sample.options
    Sample.complete (.inl rfl) hdecided
  obtain ⟨overlay, hgiven, habsent⟩ := hlacks.1 (by decide +kernel)
  cases hgiven
  exact ⟨himage, hboot rfl, habsent⟩

end Preparation

end LaunchPlan
