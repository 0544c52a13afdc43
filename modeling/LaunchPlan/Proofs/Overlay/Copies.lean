import LaunchPlan.Proofs.FileSystem.Entry
import LaunchPlan.Proofs.Overlay.FirstUse

/-!
The first copies of an overlay. Main statements: `sidecars_endIn`, the two copies have different
names in one directory, so that neither copy can take the place of the other, and
`first_use_copies`, a run that finds neither copy makes both, with the content of what they are
made from.
-/

namespace LaunchPlan

theorem sidecars_endIn (overlay : Path) :
    ∃ folder rom image, (romSidecar overlay).EndsIn folder rom ∧
      (imageSidecar overlay).EndsIn folder image ∧ rom ≠ image := by
  obtain ⟨folder, last, hsuffix⟩ := overlay.endsIn_withSuffix
  refine ⟨folder, _, _, hsuffix ".u-boot.rom" (by decide) (by decide),
    hsuffix ".img" (by decide) (by decide), ?_⟩
  intro hsame
  have htext := List.append_cancel_left hsame
  revert htext
  decide

theorem startOf_sidecars (cwd : Location) (overlay : Path) :
    FileSystem.startOf cwd (romSidecar overlay)
      = FileSystem.startOf cwd (imageSidecar overlay) := by
  unfold FileSystem.startOf romSidecar imageSidecar
  rw [Path.isAbsolute_withSuffix _ (by decide), Path.isAbsolute_withSuffix _ (by decide)]

namespace Preparation

variable {probe : Probe} {o : Options} {h : Host} {overlay : Path}

/-- Neither of the overlay's own copies has an entry, not even a link that leads nowhere. -/
structure IsBare (files : FileSystem) (cwd : Location) (overlay : Path) : Prop where
  rom : files.hasEntry cwd (romSidecar overlay) = false
  image : files.hasEntry cwd (imageSidecar overlay) = false

theorem IsBare.rom_absent (bare : IsBare h.files h.cwd overlay) :
    h.isPresent (romSidecar overlay) = false := by
  obtain ⟨_, _, _, hends, -⟩ := sidecars_endIn overlay
  exact FileSystem.not_isPresent_of_vacant hends bare.rom

theorem image_absent_of_vacant
    (vacant : h.files.hasEntry h.cwd (imageSidecar overlay) = false) :
    h.isPresent (imageSidecar overlay) = false := by
  obtain ⟨_, _, _, -, hends, -⟩ := sidecars_endIn overlay
  exact FileSystem.not_isPresent_of_vacant hends vacant

/-- The copy of the U-Boot image leaves the gap for that of the disk image. -/
theorem IsBare.image_later {lookup : Except Fault Path} {place : Location} {file : Entry}
    {mid : FileSystem} (bare : IsBare h.files h.cwd overlay)
    (copy : FirstCopy h o lookup romSidecar overlay place file mid) :
    mid.hasEntry h.cwd (imageSidecar overlay) = false := by
  obtain ⟨folder, rom, image, hrom, himage, hne⟩ := sidecars_endIn overlay
  obtain ⟨source, -, hcopied⟩ := copy.copied
  exact hcopied.hasEntry_sibling hrom himage hne.symm (startOf_sidecars h.cwd overlay).symm bare.rom
    bare.image

/-- The copy of the disk image makes none of the U-Boot image. -/
theorem IsBare.rom_later {lookup : Except Fault Path} {place : Location} {file : Entry}
    {after : FileSystem} (bare : IsBare h.files h.cwd overlay)
    (copy : FirstCopy h o lookup imageSidecar overlay place file after) :
    after.hasEntry h.cwd (romSidecar overlay) = false := by
  obtain ⟨folder, rom, image, hrom, himage, hne⟩ := sidecars_endIn overlay
  obtain ⟨source, -, hcopied⟩ := copy.copied
  exact hcopied.hasEntry_sibling himage hrom hne (startOf_sidecars h.cwd overlay) bare.image bare.rom

/-- The path of the U-Boot image: the given one, or that of the deployment made absolute. -/
def IsRomSource (h : Host) (o : Options) (d : Deployment) (source : Path) : Prop :=
  o.bootloader = some source ∨
    o.bootloader = none ∧ FileSystem.absolute h.cwd d.bootloader = .ok source

/-- The path of the disk image: the canonical one of what its name leads to, or that of the
deployment. -/
def IsImageSource (h : Host) (o : Options) (d : Deployment) (source : Path) : Prop :=
  if h.isPresent (.ofString o.imageName) then
    h.files.canonical h.cwd (.ofString o.imageName) = .ok source
  else source = d.image o.imageName (diskExtension o.uboot d.machine)

theorem isRomSource {d : Deployment} {source : Path} (found : romSource h o d = .ok source) :
    IsRomSource h o d source := by
  unfold romSource at found
  split at found
  · next path hgiven =>
    cases found
    exact .inl hgiven
  · next hnone => exact .inr ⟨hnone, found⟩

theorem imageSource_eq_ok_iff {d : Deployment} {source : Path} :
    imageSource h o d = .ok source ↔ IsImageSource h o d source := by
  unfold IsImageSource
  split
  · next hpresent => rw [imageSource_of_present hpresent]
  · next habsent => rw [imageSource_of_absent (by simpa using habsent), Except.ok.injEq, eq_comm]

theorem FirstCopy.isFile {lookup : Except Fault Path} {sidecar : Path → Path} {place : Location}
    {file : Entry} {after : FileSystem}
    (copy : FirstCopy h o lookup sidecar overlay place file after) :
    ∃ source content, lookup = .ok source ∧ h.files.IsFile h.cwd source content ∧
      after.IsFile h.cwd (sidecar overlay) content := by
  obtain ⟨source, hlookup, hcopied⟩ := copy.copied
  obtain ⟨content, hsource, htarget⟩ := hcopied.isFile_target
  exact ⟨source, content, hlookup, hsource, htarget⟩

section Stages

variable {s t u v : Progress} {launch : Launch}

theorem Stages.cwd_booted (stages : Stages probe o s t launch u v) : u.host.cwd = s.host.cwd := by
  rw [stages.booted]

theorem Stages.firstRom (stages : Stages probe o s t launch u v) (real : o.dryRun = false)
    (given : o.overlay = some overlay) (bare : IsBare s.host.files s.host.cwd overlay)
    (efi : o.efi = false) :
    launch.bootImage = .bios (romSidecar overlay) ∧ ∃ place file,
      FirstRom s.host o launch.machine overlay place file u.host.files := by
  have huboot : o.uboot = true := by simpa [given] using stages.fits
  exact chooseBootImage_firstCopy real given huboot efi bare.rom_absent stages.boot

/-- Whatever the choice of the boot image does, the disk image still has no copy after it. -/
theorem Stages.image_vacant (stages : Stages probe o s t launch u v) (real : o.dryRun = false)
    (given : o.overlay = some overlay) (bare : IsBare s.host.files s.host.cwd overlay) :
    u.host.files.hasEntry u.host.cwd (imageSidecar overlay) = false := by
  rw [stages.cwd_booted]
  cases hefi : o.efi with
  | false =>
    obtain ⟨-, place, file, hcopy⟩ := stages.firstRom real given bare hefi
    exact bare.image_later hcopy
  | true =>
    rw [(chooseBootImage_efi_ok hefi stages.boot).2]
    exact bare.image

theorem Stages.firstImage (stages : Stages probe o s t launch u v) (real : o.dryRun = false)
    (given : o.overlay = some overlay) (bare : IsBare s.host.files s.host.cwd overlay) :
    launch.image = imageSidecar overlay ∧ ∃ place file,
      FirstImage u.host o launch.machine overlay place file v.host.files :=
  chooseImage_firstCopy real given
    (image_absent_of_vacant (stages.image_vacant real given bare)) stages.disk

end Stages

/-- A real run with an overlay that has neither of its own copies makes both, or with UEFI only that
of the disk image. Each holds what its source held when the copy was made. -/
theorem first_use_copies (probe : Probe) (o : Options) (h : Host) {overlay : Path} {launch : Launch}
    (real : o.dryRun = false) (given : o.overlay = some overlay)
    (bare : IsBare h.files h.cwd overlay)
    (decided : (h.run (prepare probe o)).result = .ok launch) :
    let deployment : Deployment := ⟨o.dir, launch.machine⟩
    let mid := (Ending.progress (chooseBootImage o deployment h.begin)).host
    let after := (h.run (prepare probe o)).host.files
    launch.image = overlay.withSuffix ".img" ∧
    (∃ source content, IsImageSource mid o deployment source ∧
      mid.files.IsFile h.cwd source content ∧ after.IsFile h.cwd launch.image content) ∧
    (o.efi = false → launch.bootImage = .bios (overlay.withSuffix ".u-boot.rom") ∧
      ∃ source content, IsRomSource h o deployment source ∧
        h.files.IsFile h.cwd source content ∧
        after.IsFile h.cwd launch.bootImage.path content) ∧
    (o.efi = true → launch.bootImage = .bios efiFirmware ∧
      after.hasEntry h.cwd (romSidecar overlay) = false) := by
  intro deployment mid after
  obtain ⟨t, hend, hrun⟩ := Host.run_ok decided
  obtain ⟨u, v, stages⟩ := prepare_stages hend
  have hmid : mid = u.host := by
    simp only [mid, deployment, stages.boot, Ending.progress_ok]
  have hafter : after = v.host.files := by
    have hhost : after = t.host.files := congrArg (fun run => run.host.files) hrun
    rw [hhost, stages.imaged]
  have hcwd : u.host.cwd = h.cwd := stages.cwd_booted
  obtain ⟨himage, place, file, hcopyImage⟩ := stages.firstImage real given bare
  rw [hmid, hafter]
  refine ⟨himage, ?_, fun efi => ?_, fun efi => ?_⟩
  · obtain ⟨source, content, hsource, hholds, hcopy⟩ := hcopyImage.isFile
    rw [hcwd] at hholds hcopy
    rw [himage]
    exact ⟨source, content, imageSource_eq_ok_iff.1 hsource, hholds, hcopy⟩
  · obtain ⟨hboot, romPlace, romFile, hcopyRom⟩ := stages.firstRom real given bare efi
    obtain ⟨source, content, hsource, hholds, hcopy⟩ := hcopyRom.isFile
    rw [hboot]
    exact ⟨rfl, source, content, isRomSource hsource, hholds, hcopyImage.grows.isFile hcopy⟩
  · obtain ⟨hboot, hstill⟩ := chooseBootImage_efi_ok efi stages.boot
    rw [hstill] at hcopyImage
    exact ⟨hboot, IsBare.rom_later (h := h) bare hcopyImage⟩

theorem first_use_copies_sample :
    let after := (Sample.complete.run (prepare (.known false) Sample.options)).host.files
    ∃ rom image,
      Sample.complete.files.IsFile [] (.ofString "/d/m/u-boot-qemux86-64.rom") rom ∧
      after.IsFile [] (.ofString "/v.u-boot.rom") rom ∧
      after.IsFile [] (.ofString "/v.img") image := by
  intro after
  have hdecided : (Sample.complete.run (prepare (.known false) Sample.options)).result
      = .ok (Sample.options.launch "m" (.bios (.ofString "/v.u-boot.rom")) (.ofString "/v.img")
        (⟨0x52, 0x54, 0, 0, 0, 1⟩, none) 8990 2222 false) := by
    decide +kernel
  obtain ⟨-, ⟨-, image, -, -, himage⟩, hrom, -⟩ := first_use_copies (.known false) Sample.options
    Sample.complete rfl rfl ⟨by decide +kernel, by decide +kernel⟩ hdecided
  obtain ⟨-, source, rom, hsource, hholds, hcopy⟩ := hrom rfl
  have hpath : FileSystem.absolute [] (Deployment.bootloader ⟨.ofString "/d", "m"⟩)
      = .ok (.ofString "/d/m/u-boot-qemux86-64.rom") := by
    decide +kernel
  rcases hsource with hgiven | ⟨-, habsolute⟩
  · cases hgiven
  · cases habsolute.symm.trans hpath
    exact ⟨rom, image, hholds, hcopy, himage⟩

end Preparation

end LaunchPlan
