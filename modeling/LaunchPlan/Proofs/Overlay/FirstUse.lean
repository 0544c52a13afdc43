import LaunchPlan.Proofs.Preparation.Outcome

/-!
What a preparation does to the files of its host. Main statement: `prepare_files`, it makes the
first copy of the U-Boot image or leaves the files alone, and then the same with the disk image.
-/

namespace LaunchPlan

namespace Preparation

/-- On a host an overlay that is not there yet gets its own copy of what `lookup` names. -/
structure FirstCopy (h : Host) (o : Options) (lookup : Except Fault Path) (sidecar : Path → Path)
    (overlay : Path) (place : Location) (file : Entry) (after : FileSystem) : Prop where
  given : o.overlay = some overlay
  real : o.dryRun = false
  fresh : h.isPresent overlay = false
  copied : ∃ source, lookup = .ok source ∧
    FileSystem.Copied h.cwd source (sidecar overlay) place file h.files after

/-- The first copy of the U-Boot image. -/
abbrev FirstRom (h : Host) (o : Options) (machine : String) :=
  FirstCopy h o (romSource h o ⟨o.dir, machine⟩) romSidecar

/-- The first copy of the disk image. -/
abbrev FirstImage (h : Host) (o : Options) (machine : String) :=
  FirstCopy h o (imageSource h o ⟨o.dir, machine⟩) imageSidecar

namespace FirstCopy

variable {h : Host} {o : Options} {lookup : Except Fault Path} {sidecar : Path → Path}
  {overlay : Path} {place : Location} {file : Entry} {after : FileSystem}

theorem grows (copy : FirstCopy h o lookup sidecar overlay place file after) :
    h.files.Grows after := by
  obtain ⟨source, -, hcopied⟩ := copy.copied
  exact hcopied.grows

theorem get? (copy : FirstCopy h o lookup sidecar overlay place file after) (other : Location) :
    after.get? other = if other = place then some file else h.files.get? other := by
  obtain ⟨source, -, hcopied⟩ := copy.copied
  exact hcopied.get? other

/-- What is new after a first copy is the copy. -/
theorem eq_of_new (copy : FirstCopy h o lookup sidecar overlay place file after)
    {other : Location} {entry : Entry} (absent : h.files.get? other = none)
    (added : after.get? other = some entry) : other = place ∧ entry = file := by
  rw [copy.get?] at added
  split at added
  · next heq => exact ⟨heq, (Option.some.inj added).symm⟩
  · rw [absent] at added
    cases added

theorem get?_of_notMem (copy : FirstCopy h o lookup sidecar overlay place file after)
    {other : Location} (elsewhere : other ∉ [place]) : after.get? other = h.files.get? other := by
  rw [copy.get?, if_neg (by simpa using elsewhere)]

theorem absent (copy : FirstCopy h o lookup sidecar overlay place file after) :
    h.isPresent (sidecar overlay) = false := by
  obtain ⟨source, -, hcopied⟩ := copy.copied
  simp [Host.isPresent, FileSystem.isPresent, hcopied.target, Walk.isFound]

theorem changes (copy : FirstCopy h o lookup sidecar overlay place file after) :
    after ≠ h.files := by
  obtain ⟨source, -, hcopied⟩ := copy.copied
  intro hsame
  have hnew : after.get? place = some file := by rw [copy.get?, if_pos rfl]
  rw [hsame, hcopied.gap] at hnew
  cases hnew

end FirstCopy

variable {probe : Probe} {o : Options} {s : Progress}

theorem OwnOutcome.host {artifact : Artifact} {source sidecar overlay : Path} {dryRun : Bool}
    {r : Ending Path} (h : OwnOutcome artifact source sidecar overlay dryRun s r) :
    r.progress.host = s.host ∨
      dryRun = false ∧ s.host.isPresent overlay = false ∧ ∃ place file files,
        FileSystem.Copied s.host.cwd source sidecar place file s.host.files files ∧
        r.progress.host = { s.host with files } := by
  cases h with
  | reused | lost | sourceMissing | kept | announced | copyFailed => exact .inl rfl
  | copied hfresh hreal _ hown hcopy =>
    obtain ⟨place, file, hcopied⟩ := FileSystem.copied_of_copy hown hcopy
    exact .inr ⟨hreal, hfresh, place, file, _, hcopied, rfl⟩

theorem ownStage_host {artifact : Artifact} {lookup : Except Fault Path} {sidecar : Path → Path}
    {overlay : Path} {r : Ending Path} (given : o.overlay = some overlay)
    (h : ownStage artifact lookup (sidecar overlay) overlay o.dryRun s = r) :
    r.progress.host = s.host ∨ ∃ overlay place file files,
      FirstCopy s.host o lookup sidecar overlay place file files ∧
      r.progress.host = { s.host with files } := by
  subst h
  cases lookup with
  | error fault => exact .inl rfl
  | ok source =>
    rcases (ownArtifact_outcome rfl).host with hsame | hmade
    · exact .inl hsame
    · obtain ⟨hreal, hfresh, place, file, files, hcopied, hhost⟩ := hmade
      exact .inr ⟨overlay, place, file, files, ⟨given, hreal, hfresh, source, rfl, hcopied⟩, hhost⟩

theorem plainStage_progress (artifact : Artifact) (lookup : Except Fault Path) (dryRun : Bool) :
    (plainStage artifact lookup dryRun s).progress = s := by
  cases lookup with
  | error fault => rfl
  | ok path =>
    simp only [plainStage]
    split <;> rfl

/-- Only the stage for an overlay's own copy leaves a trace while the boot image is chosen. -/
theorem chooseBootImage_progress (d : Deployment) :
    Ending.progress (chooseBootImage o d s) = s ∨ o.uboot = true ∧ o.efi = false ∧
      ∃ overlay, o.overlay = some overlay ∧
        Ending.progress (chooseBootImage o d s) = (ownStage .ubootImage (romSource s.host o d)
          (romSidecar overlay) overlay o.dryRun s).progress := by
  generalize hrun : chooseBootImage o d s = r
  cases chooseBootImage_run hrun with
  | firmware => exact .inl rfl
  | kernel => exact .inl (by rw [Ending.progress_map, plainStage_progress])
  | plainRom => exact .inl (by rw [Ending.progress_map, plainStage_progress])
  | ownRom hefi huboot hgiven =>
    exact .inr ⟨huboot, hefi, _, hgiven, by rw [Ending.progress_map]⟩

theorem chooseImage_progress (d : Deployment) :
    Ending.progress (chooseImage o d s) = s ∨ ∃ overlay, o.overlay = some overlay ∧
      Ending.progress (chooseImage o d s) = (ownStage .osImage (imageSource s.host o d)
        (imageSidecar overlay) overlay o.dryRun s).progress := by
  generalize hrun : chooseImage o d s = r
  cases chooseImage_run hrun with
  | plain => exact .inl (by rw [plainStage_progress])
  | own hgiven => exact .inr ⟨_, hgiven, rfl⟩

theorem chooseBootImage_host (d : Deployment) :
    (Ending.progress (chooseBootImage o d s)).host = s.host ∨ o.uboot = true ∧ o.efi = false ∧
      ∃ overlay place file files,
        FirstCopy s.host o (romSource s.host o d) romSidecar overlay place file files ∧
        (Ending.progress (chooseBootImage o d s)).host = { s.host with files } := by
  rcases chooseBootImage_progress d with hsame | ⟨huboot, hefi, overlay, hgiven, hown⟩
  · exact .inl (congrArg Progress.host hsame)
  · rw [hown]
    exact (ownStage_host hgiven rfl).imp_right fun hmade => ⟨huboot, hefi, hmade⟩

theorem chooseImage_host (d : Deployment) :
    (Ending.progress (chooseImage o d s)).host = s.host ∨ ∃ overlay place file files,
      FirstCopy s.host o (imageSource s.host o d) imageSidecar overlay place file files ∧
      (Ending.progress (chooseImage o d s)).host = { s.host with files } := by
  rcases chooseImage_progress d with hsame | ⟨overlay, hgiven, hown⟩
  · exact .inl (congrArg Progress.host hsame)
  · rw [hown]
    exact ownStage_host hgiven rfl

/-- A real stage that finds no copy of its artifact and still ends well has made the first one. -/
theorem ownStage_firstCopy {artifact : Artifact} {lookup : Except Fault Path}
    {sidecar : Path → Path} {overlay own : Path} {t : Progress} (real : o.dryRun = false)
    (given : o.overlay = some overlay) (absent : s.host.isPresent (sidecar overlay) = false)
    (h : ownStage artifact lookup (sidecar overlay) overlay o.dryRun s = .ok own t) :
    ∃ place file, FirstCopy s.host o lookup sidecar overlay place file t.host.files := by
  cases lookup with
  | error fault => cases h
  | ok source =>
    cases ownArtifact_outcome h with
    | reused _ hown => simp [absent] at hown
    | kept _ _ hown => simp [absent] at hown
    | announced _ hdry => simp [real] at hdry
    | copied hfresh _ _ hown hcopy =>
      obtain ⟨place, file, hcopied⟩ := FileSystem.copied_of_copy hown hcopy
      exact ⟨place, file, given, real, hfresh, source, rfl, hcopied⟩

theorem chooseBootImage_firstCopy {d : Deployment} {overlay : Path} {bootImage : BootImage}
    {t : Progress} (real : o.dryRun = false) (given : o.overlay = some overlay)
    (uboot : o.uboot = true) (efi : o.efi = false)
    (absent : s.host.isPresent (romSidecar overlay) = false)
    (h : chooseBootImage o d s = .ok bootImage t) :
    bootImage = .bios (romSidecar overlay) ∧ ∃ place file,
      FirstCopy s.host o (romSource s.host o d) romSidecar overlay place file t.host.files := by
  rw [chooseBootImage_uboot s efi uboot, chooseBootloader_overlay s given] at h
  obtain ⟨rom, hrom, rfl⟩ := Ending.map_ok h
  exact ⟨congrArg BootImage.bios (ownStage_ok hrom).1, ownStage_firstCopy real given absent hrom⟩

theorem chooseImage_firstCopy {d : Deployment} {overlay image : Path} {t : Progress}
    (real : o.dryRun = false) (given : o.overlay = some overlay)
    (absent : s.host.isPresent (imageSidecar overlay) = false)
    (h : chooseImage o d s = .ok image t) :
    image = imageSidecar overlay ∧ ∃ place file,
      FirstCopy s.host o (imageSource s.host o d) imageSidecar overlay place file t.host.files := by
  rw [chooseImage_overlay s given] at h
  exact ⟨(ownStage_ok h).1, ownStage_firstCopy real given absent h⟩

/-- What becomes of the files while the boot image is chosen. -/
inductive RomStep (h : Host) (o : Options) : FileSystem → Prop
  | still : RomStep h o h.files
  | made {machine : String} {overlay : Path} {place : Location} {file : Entry} {mid : FileSystem}
      (uboot : o.uboot = true) (efi : o.efi = false) (known : machineOf h o = .ok machine)
      (copy : FirstRom h o machine overlay place file mid) : RomStep h o mid

/-- What becomes of the files that the choice of the boot image left while the disk image is
chosen. -/
inductive ImageStep (h : Host) (o : Options) (mid : FileSystem) : FileSystem → Prop
  | still : ImageStep h o mid mid
  | made {machine : String} {overlay : Path} {place : Location} {file : Entry} {after : FileSystem}
      (uboot : o.uboot = true) (known : machineOf h o = .ok machine)
      (copy : FirstImage { h with files := mid } o machine overlay place file after) :
      ImageStep h o mid after

theorem RomStep.grows {h : Host} {mid : FileSystem} (step : RomStep h o mid) :
    h.files.Grows mid := by
  cases step with
  | still => exact .refl
  | made _ _ _ copy => exact copy.grows

theorem RomStep.eq_of_plain {h : Host} {mid : FileSystem} (step : RomStep h o mid)
    (plain : o.overlay = none) : mid = h.files := by
  cases step with
  | still => rfl
  | made _ _ _ copy => exact absurd (plain.symm.trans copy.given) (by simp)

theorem RomStep.places {h : Host} {mid : FileSystem} (step : RomStep h o mid) :
    ∃ places : List Location, places.length ≤ 1 ∧
      ∀ place, place ∉ places → mid.get? place = h.files.get? place := by
  cases step with
  | still => exact ⟨[], by simp, fun _ _ => rfl⟩
  | made _ _ _ copy => exact ⟨[_], by simp, fun _ => copy.get?_of_notMem⟩

theorem RomStep.made_of_new {h : Host} {mid : FileSystem} {place : Location} {file : Entry}
    (step : RomStep h o mid) (absent : h.files.get? place = none)
    (added : mid.get? place = some file) :
    o.uboot = true ∧ o.efi = false ∧ ∃ machine overlay, machineOf h o = .ok machine ∧
      FirstRom h o machine overlay place file mid := by
  cases step with
  | still =>
    rw [absent] at added
    cases added
  | @made machine overlay _ _ _ huboot hefi hknown copy =>
    obtain ⟨rfl, rfl⟩ := copy.eq_of_new absent added
    exact ⟨huboot, hefi, machine, overlay, hknown, copy⟩

theorem ImageStep.grows {h : Host} {mid after : FileSystem} (step : ImageStep h o mid after) :
    mid.Grows after := by
  cases step with
  | still => exact .refl
  | made _ _ copy => exact copy.grows

theorem ImageStep.eq_of_plain {h : Host} {mid after : FileSystem}
    (step : ImageStep h o mid after) (plain : o.overlay = none) : after = mid := by
  cases step with
  | still => rfl
  | made _ _ copy => exact absurd (plain.symm.trans copy.given) (by simp)

theorem ImageStep.places {h : Host} {mid after : FileSystem} (step : ImageStep h o mid after) :
    ∃ places : List Location, places.length ≤ 1 ∧
      ∀ place, place ∉ places → after.get? place = mid.get? place := by
  cases step with
  | still => exact ⟨[], by simp, fun _ _ => rfl⟩
  | made _ _ copy => exact ⟨[_], by simp, fun _ => copy.get?_of_notMem⟩

theorem ImageStep.made_of_new {h : Host} {mid after : FileSystem} {place : Location} {file : Entry}
    (step : ImageStep h o mid after) (absent : mid.get? place = none)
    (added : after.get? place = some file) :
    o.uboot = true ∧ ∃ machine overlay, machineOf h o = .ok machine ∧
      FirstImage { h with files := mid } o machine overlay place file after := by
  cases step with
  | still =>
    rw [absent] at added
    cases added
  | @made machine overlay _ _ _ huboot hknown copy =>
    obtain ⟨rfl, rfl⟩ := copy.eq_of_new absent added
    exact ⟨huboot, machine, overlay, hknown, copy⟩

theorem chooseBootImage_files {machine : String} {r : Ending BootImage}
    (known : machineOf s.host o = .ok machine) (h : chooseBootImage o ⟨o.dir, machine⟩ s = r) :
    ∃ mid, RomStep s.host o mid ∧ r.progress.host = { s.host with files := mid } := by
  subst h
  rcases chooseBootImage_host ⟨o.dir, machine⟩ with hsame | hmade
  · exact ⟨s.host.files, .still, hsame⟩
  · obtain ⟨huboot, hefi, overlay, place, file, mid, hcopy, hhost⟩ := hmade
    exact ⟨mid, .made huboot hefi known hcopy, hhost⟩

theorem chooseImage_files {machine : String} {h : Host} {mid : FileSystem} {r : Ending Path}
    (fits : o.uboot = true ∨ o.overlay = none) (known : machineOf h o = .ok machine)
    (host : s.host = { h with files := mid }) (run : chooseImage o ⟨o.dir, machine⟩ s = r) :
    ∃ after, ImageStep h o mid after ∧ r.progress.host = { h with files := after } := by
  subst run
  rcases chooseImage_host ⟨o.dir, machine⟩ with hsame | hmade
  · exact ⟨mid, .still, hsame.trans host⟩
  · obtain ⟨overlay, place, file, after, hcopy, hhost⟩ := hmade
    have huboot : o.uboot = true := by simpa [hcopy.given] using fits
    rw [host] at hcopy hhost
    exact ⟨after, .made huboot known hcopy, hhost⟩

/-- A preparation changes the files in two steps at most, and of the rest of its host only the
dice. -/
theorem prepare_host {r : Ending Launch} (h : prepare probe o s = r) :
    ∃ mid after dice, RomStep s.host o mid ∧ ImageStep s.host o mid after ∧
      r.progress.host = { s.host with files := after, dice } := by
  cases prepare_outcome h with
  | refused => exact ⟨_, _, _, .still, .still, rfl⟩
  | unknownMachine => exact ⟨_, _, _, .still, .still, rfl⟩
  | bootFailed _ hknown hboot =>
    obtain ⟨mid, hrom, hhost⟩ := chooseBootImage_files hknown hboot
    exact ⟨mid, _, _, hrom, .still, hhost⟩
  | imageFailed hfits hknown hboot hdisk =>
    obtain ⟨mid, hrom, hhost⟩ := chooseBootImage_files hknown hboot
    obtain ⟨after, himage, hend⟩ := chooseImage_files hfits hknown hhost hdisk
    exact ⟨mid, after, _, hrom, himage, hend⟩
  | completed hfits hknown hboot hdisk =>
    obtain ⟨mid, hrom, hhost⟩ := chooseBootImage_files hknown hboot
    obtain ⟨after, himage, hend⟩ := chooseImage_files hfits hknown hhost hdisk
    rw [Ending.progress_ok] at hend
    rw [complete_host, hend]
    exact ⟨mid, after, _, hrom, himage, rfl⟩

theorem prepare_files {r : Ending Launch} (h : prepare probe o s = r) :
    ∃ mid, RomStep s.host o mid ∧ ImageStep s.host o mid r.progress.host.files := by
  obtain ⟨mid, after, _, hrom, himage, hhost⟩ := prepare_host h
  rw [hhost]
  exact ⟨mid, hrom, himage⟩

/-- A preparation that came to a launch, stage by stage: the machine, the boot image, the disk image
and the rest. -/
structure Stages (probe : Probe) (o : Options) (s t : Progress) (launch : Launch)
    (u v : Progress) : Prop where
  fits : o.uboot = true ∨ o.overlay = none
  known : machineOf s.host o = .ok launch.machine
  boot : chooseBootImage o ⟨o.dir, launch.machine⟩ s = .ok launch.bootImage u
  booted : u.host = { s.host with files := u.host.files }
  rom : RomStep s.host o u.host.files
  disk : chooseImage o ⟨o.dir, launch.machine⟩ u = .ok launch.image v
  imaged : v.host = { s.host with files := t.host.files }
  image : ImageStep s.host o u.host.files t.host.files
  last : complete probe o launch.machine launch.bootImage launch.image v = .ok launch t

theorem prepare_stages {s t : Progress} {launch : Launch} (h : prepare probe o s = .ok launch t) :
    ∃ u v, Stages probe o s t launch u v := by
  obtain ⟨hfits, machine, bootImage, image, u, v, hknown, hboot, hdisk, hlast⟩ := prepare_ok h
  obtain ⟨mid, hrom, hu⟩ := chooseBootImage_files hknown hboot
  obtain ⟨after, himage, hv⟩ := chooseImage_files hfits hknown hu hdisk
  obtain ⟨_, _, -, rfl, ht⟩ := complete_ok hlast
  rw [Ending.progress_ok] at hu hv
  have hmid : u.host.files = mid := by rw [hu]
  have hafter : t.host.files = after := by rw [ht, hv]
  refine ⟨u, v, hfits, hknown, hboot, ?_, ?_, hdisk, ?_, ?_, hlast⟩
  · rw [hmid]
    exact hu
  · rwa [hmid]
  · rw [hafter]
    exact hv
  · rwa [hmid, hafter]

theorem Stages.grows {s t u v : Progress} {launch : Launch}
    (stages : Stages probe o s t launch u v) : s.host.files.Grows t.host.files :=
  stages.rom.grows.trans stages.image.grows

/-- The last stage changes nothing that a path could lead to. -/
theorem Stages.host_eq {s t u v : Progress} {launch : Launch}
    (stages : Stages probe o s t launch u v) :
    t.host = { v.host with dice := (o.addresses v.host.dice).2 } := by
  obtain ⟨_, _, -, -, ht⟩ := complete_ok stages.last
  exact ht

theorem Stages.unchanged {s t u v : Progress} {launch : Launch}
    (stages : Stages probe o s t launch u v) (plain : o.overlay = none) :
    u.host = s.host ∧ v.host = s.host := by
  have hu := stages.rom.eq_of_plain plain
  have ht := stages.image.eq_of_plain plain
  constructor
  · rw [stages.booted, hu]
  · rw [stages.imaged, ht, hu]

end Preparation

end LaunchPlan
