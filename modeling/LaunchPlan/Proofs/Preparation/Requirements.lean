import LaunchPlan.Proofs.FileSystem.Absolute
import LaunchPlan.Proofs.Overlay.Established
import LaunchPlan.Proofs.Preparation.Verdict

/-!
What has to be there for a launch when nothing is to be copied. The paths that are checked are
absolute or without links, but what is asked for is said of the paths as they were given. Main
statement: `launch_requires`, the first thing that is missing decides how a preparation fails.
-/

namespace LaunchPlan

namespace Preparation

variable {o : Options} {h : Host} {s : Progress} {machine : String} {artifact : Artifact}

/-- A run that copies nothing and has to find what it needs: a real one without an overlay, or one
with an overlay that is there. -/
inductive CopiesNothing (h : Host) (o : Options) : Prop
  | plain (plain : o.overlay = none) (real : o.dryRun = false)
  | established {overlay : Path} (given : o.overlay = some overlay) (uboot : o.uboot = true)
      (there : h.isPresent overlay = true)

theorem CopiesNothing.fits (settled : CopiesNothing h o) :
    o.uboot = true ∨ o.overlay = none := by
  cases settled with
  | plain plain _ => exact .inr plain
  | established _ uboot _ => exact .inl uboot

theorem CopiesNothing.real (settled : CopiesNothing h o) (plain : o.overlay = none) :
    o.dryRun = false := by
  cases settled with
  | plain _ real => exact real
  | established given _ _ => cases plain.symm.trans given

theorem CopiesNothing.there {overlay : Path} (settled : CopiesNothing h o)
    (given : o.overlay = some overlay) : h.isPresent overlay = true := by
  cases settled with
  | plain plain _ => cases plain.symm.trans given
  | established given' _ there =>
    cases given.symm.trans given'
    exact there

def bootArtifact (o : Options) : Artifact := if o.uboot then .ubootImage else .kernelImage

/-- The path of what is booted, as it is given or as the build lays it out. -/
def bootPath (o : Options) (machine : String) : Path :=
  match o.overlay with
  | some overlay => romSidecar overlay
  | none =>
    if o.uboot then o.bootloader.getD (Deployment.bootloader ⟨o.dir, machine⟩)
    else Deployment.kernel ⟨o.dir, machine⟩

def recipePath (o : Options) (machine : String) : Path :=
  Deployment.image ⟨o.dir, machine⟩ o.imageName (diskExtension o.uboot machine)

def HasBoot (h : Host) (o : Options) (machine : String) : Prop :=
  o.efi = true ∨ h.isPresent (bootPath o machine) = true

def HasImage (h : Host) (o : Options) (machine : String) : Prop :=
  match o.overlay with
  | some overlay => h.isPresent (imageSidecar overlay) = true
  | none =>
    h.isPresent (.ofString o.imageName) = true ∨ h.isPresent (recipePath o machine) = true

/-- The first artifact that is missing is named; its path is that at which it was looked for. -/
def requirements (h : Host) (o : Options) : Demands where
  boot := HasBoot h o
  image := HasImage h o
  bootFailure e := ∃ path, e = .missingArtifact (bootArtifact o) path
  imageFailure e := ∃ path, e = .missingArtifact .osImage path

/-- The paths of the artifacts have the forms in which they are looked for, and these are no longer
than can be followed, unless the paths are. -/
structure ArtifactsFaithful (h : Host) (o : Options) (machine : String) : Prop where
  rom : o.efi = false → o.uboot = true → o.bootloader = none →
    FileSystem.HasSpelling h.cwd (Deployment.bootloader ⟨o.dir, machine⟩)
  kernel : o.efi = false → o.uboot = false →
    h.files.IsFaithful h.cwd (Deployment.kernel ⟨o.dir, machine⟩)
  given : h.isPresent (.ofString o.imageName) = true →
    ∃ q, h.files.canonical h.cwd (.ofString o.imageName) = .ok q ∧
      q.bytes.length < FileSystem.maxPath
  recipe : h.isPresent (.ofString o.imageName) = false →
    h.files.IsFaithful h.cwd (recipePath o machine)

/-- Nothing goes wrong with the paths of the artifacts. With an overlay they only have to have the
forms in which they would be looked for. -/
def PathsClear (h : Host) (o : Options) (machine : String) : Prop :=
  match o.overlay with
  | some _ => SourcesNamed h o machine
  | none => ArtifactsFaithful h o machine

theorem pathsClear_plain (plain : o.overlay = none) :
    PathsClear h o machine ↔ ArtifactsFaithful h o machine := by
  simp only [PathsClear, plain]

theorem pathsClear_own {overlay : Path} (given : o.overlay = some overlay) :
    PathsClear h o machine ↔ SourcesNamed h o machine := by
  simp only [PathsClear, given]

theorem plainStage_decides_real {lookup : Except Fault Path} {demand : Prop}
    (looks : ∃ path, lookup = .ok path ∧ (s.host.isPresent path = true ↔ demand)) :
    Decides demand (fun e => ∃ path, e = .missingArtifact artifact path) s
      (plainStage artifact lookup false s) := by
  obtain ⟨path, rfl, hdemand⟩ := looks
  cases hpresent : s.host.isPresent path with
  | true =>
    simp only [plainStage, isAmiss, hpresent, Bool.not_true, Bool.false_and, Bool.false_eq_true,
      if_false]
    exact .passed (hdemand.1 hpresent) rfl
  | false =>
    simp only [plainStage, isAmiss, hpresent, Bool.not_false, Bool.true_or, Bool.true_and, if_true]
    refine .failed (fun hmet => ?_) ⟨path, rfl⟩
    cases hpresent.symm.trans (hdemand.2 hmet)

theorem ownStage_decides_there {lookup : Except Fault Path} {sidecar overlay : Path}
    {dryRun : Bool} (there : s.host.isPresent overlay = true)
    (looks : ∃ path, lookup = .ok path) :
    Decides (s.host.isPresent sidecar = true) (fun e => ∃ path, e = .missingArtifact artifact path)
      s (ownStage artifact lookup sidecar overlay dryRun s) := by
  obtain ⟨path, rfl⟩ := looks
  rw [ownStage_there s there]
  simp only [reuse]
  split
  · next hown => exact .passed hown rfl
  · next hown => exact .failed hown ⟨sidecar, rfl⟩

theorem romSource_looks (grounded : h.files.IsGrounded h.cwd) (efi : o.efi = false)
    (uboot : o.uboot = true) (plain : o.overlay = none)
    (faithful : ArtifactsFaithful h o machine) :
    ∃ path, romSource h o ⟨o.dir, machine⟩ = .ok path ∧
      (h.isPresent path = true ↔ HasBoot h o machine) := by
  unfold romSource HasBoot bootPath
  simp only [efi, plain, uboot, if_true, Bool.false_eq_true, false_or]
  cases hgiven : o.bootloader with
  | some path => exact ⟨path, rfl, by simp⟩
  | none =>
    obtain ⟨folder, name, hends⟩ := Deployment.bootloader_endsIn ⟨o.dir, machine⟩
    obtain ⟨q, hq, hsame⟩ := FileSystem.isPresent_absolute grounded hends
      (faithful.rom efi uboot hgiven)
    exact ⟨q, hq, by simp [Host.isPresent, hsame]⟩

theorem kernel_looks (grounded : h.files.IsGrounded h.cwd) (efi : o.efi = false)
    (off : o.uboot = false) (plain : o.overlay = none)
    (faithful : ArtifactsFaithful h o machine) :
    ∃ path, h.files.settle h.cwd (Deployment.kernel ⟨o.dir, machine⟩) = .ok path ∧
      (h.isPresent path = true ↔ HasBoot h o machine) := by
  obtain ⟨folder, name, hends⟩ := Deployment.kernel_endsIn ⟨o.dir, machine⟩
  obtain ⟨q, hq, hsame⟩ := FileSystem.isPresent_settle grounded hends
    (faithful.kernel efi off)
  exact ⟨q, hq, by simp [Host.isPresent, hsame, HasBoot, bootPath, efi, off, plain]⟩

theorem imageSource_looks (grounded : h.files.IsGrounded h.cwd) (plain : o.overlay = none)
    (faithful : ArtifactsFaithful h o machine) :
    ∃ path, (imageSource h o ⟨o.dir, machine⟩ >>= h.files.settle h.cwd) = .ok path ∧
      (h.isPresent path = true ↔ HasImage h o machine) := by
  simp only [HasImage, plain]
  cases hpresent : h.isPresent (.ofString o.imageName) with
  | true =>
    obtain ⟨q, hq, hshort⟩ := faithful.given hpresent
    obtain ⟨hthere, hsettle⟩ :=
      FileSystem.isPresent_canonical hpresent hq hshort h.cwd
    rw [imageSource_of_present hpresent, hq]
    exact ⟨q, hsettle, by simp [Host.isPresent, hthere]⟩
  | false =>
    obtain ⟨folder, name, hends⟩ := Deployment.image_endsIn ⟨o.dir, machine⟩ o.imageName o.uboot
    obtain ⟨q, hq, hsame⟩ := FileSystem.isPresent_settle grounded hends
      (faithful.recipe hpresent)
    rw [imageSource_of_absent hpresent]
    exact ⟨q, hq, by simp [Host.isPresent, hsame, recipePath]⟩

theorem chooseBootImage_decides (grounded : h.files.IsGrounded h.cwd) (settled : CopiesNothing h o)
    (clear : PathsClear h o machine) :
    Decides (HasBoot h o machine) (requirements h o).bootFailure h.begin
      (chooseBootImage o ⟨o.dir, machine⟩ h.begin) := by
  generalize hrun : chooseBootImage o ⟨o.dir, machine⟩ h.begin = r
  cases chooseBootImage_run hrun with
  | firmware hefi => exact .passed (.inl hefi) rfl
  | kernel hefi hoff =>
    have hplain : o.overlay = none := by simpa [hoff] using settled.fits
    have hlooks := kernel_looks grounded hefi hoff hplain ((pathsClear_plain hplain).1 clear)
    rw [settled.real hplain]
    simp only [requirements, bootArtifact, hoff]
    exact (plainStage_decides_real hlooks).map _
  | plainRom hefi huboot hplain =>
    have hlooks := romSource_looks grounded hefi huboot hplain ((pathsClear_plain hplain).1 clear)
    rw [settled.real hplain]
    simp only [requirements, bootArtifact, huboot]
    exact (plainStage_decides_real hlooks).map _
  | @ownRom overlay hefi huboot hgiven =>
    have hnamed := ((pathsClear_own hgiven).1 clear).rom hefi
    have hlooks : ∃ path, romSource h.begin.host o ⟨o.dir, machine⟩ = .ok path :=
      romSource_ok_iff.2 hnamed
    have hthere : h.begin.host.isPresent overlay = true := settled.there hgiven
    have hboot : h.isPresent (romSidecar overlay) = true ↔ HasBoot h o machine := by
      simp [HasBoot, bootPath, hefi, hgiven]
    simp only [requirements, bootArtifact, huboot, if_true]
    exact ((ownStage_decides_there hthere hlooks).map _).congr hboot

theorem chooseImage_decides (grounded : h.files.IsGrounded h.cwd) (settled : CopiesNothing h o)
    (clear : PathsClear h o machine) (host : s.host = h) :
    Decides (HasImage h o machine) (requirements h o).imageFailure s
      (chooseImage o ⟨o.dir, machine⟩ s) := by
  generalize hrun : chooseImage o ⟨o.dir, machine⟩ s = r
  subst host
  cases chooseImage_run hrun with
  | plain hplain =>
    rw [settled.real hplain]
    exact plainStage_decides_real
      (imageSource_looks grounded hplain ((pathsClear_plain hplain).1 clear))
  | own hgiven =>
    have hnamed := ((pathsClear_own hgiven).1 clear).image
    exact (ownStage_decides_there (settled.there hgiven) (imageSource_ok_iff.2 hnamed)).congr
      (by simp [HasImage, hgiven])

/-- When nothing is to be copied, a run comes to a launch exactly if there is a machine, what it
boots, its disk image and a free port of each kind. Otherwise the first of these that is missing is
what the failure is about. This is said of paths that have the forms by which the artifacts are
looked for, and that are short enough to be followed exactly if these are. -/
theorem launch_requires (probe : Probe) (o : Options) (h : Host)
    (grounded : h.files.IsGrounded h.cwd) (settled : CopiesNothing h o)
    (clear : ∀ machine, IsMachine h o machine → PathsClear h o machine) :
    let result := (h.run (prepare probe o)).result
    Verdict h o (requirements h o) result ∧
    ((∃ launch, result = .ok launch) ↔
      ∃ machine, IsMachine h o machine ∧ HasBoot h o machine ∧ HasImage h o machine ∧
        Port.HasFree h.held Port.serialStart ∧ Port.HasFree h.held Port.sshStart) := by
  intro result
  have hverdict : Verdict h o (requirements h o) result :=
    prepare_verdict
      (fun machine known => chooseBootImage_decides grounded settled (clear machine known))
      fun machine s known host => chooseImage_decides grounded settled (clear machine known) host
  refine ⟨hverdict, ?_⟩
  rw [hverdict.succeeds_iff, Demands.AreMet]
  exact and_iff_right settled.fits

/-- A deployment is found from the images directory itself, and its artifacts by relative paths. With
an established overlay a dry run does without the deployment. -/
theorem launch_requires_sample :
    let h : Host := { Sample.complete with cwd := Sample.place ["d"] }
    let o : Options := { Sample.options with dir := .ofString ".", overlay := none }
    let h' := Sample.detached
    let o' : Options := { Sample.options with dryRun := true }
    (∃ launch, (h.run (prepare (.known false) o)).result = .ok launch) ∧
      ∃ launch, (h'.run (prepare (.known false) o')).result = .ok launch := by
  intro h o h' o'
  have hserial : Port.HasFree [] Port.serialStart := ⟨8990, by decide, by decide, by decide⟩
  have hssh : Port.HasFree [] Port.sshStart := ⟨2222, by decide, by decide, by decide⟩
  constructor
  · have hmachine : IsMachine h o "m" := .given rfl
    have habsent : h.isPresent (.ofString "i") = false := by decide +kernel
    have hrecipe : h.isPresent (recipePath o "m") = true := by decide +kernel
    have hclear : ∀ machine, IsMachine h o machine → PathsClear h o machine := by
      intro machine known
      cases known.unique hmachine
      refine (pathsClear_plain rfl).2 ⟨fun _ _ _ => ?_, fun _ hoff => ?_, fun hpresent => ?_,
        fun _ => ⟨fun _ => ?_, fun hmissing => ?_⟩⟩
      · exact ⟨.ofString "/d/m/u-boot-qemux86-64.rom", by decide +kernel, by decide +kernel⟩
      · cases hoff
      · cases habsent.symm.trans hpresent
      · exact ⟨.ofString "/d/m/i-m.wic", by decide +kernel, by decide +kernel⟩
      · cases hrecipe.symm.trans hmissing
    obtain ⟨-, hsucceeds⟩ :=
      launch_requires (.known false) o h (fun _ => by decide +kernel) (.plain rfl rfl) hclear
    exact hsucceeds.2 ⟨"m", hmachine, .inr (by decide +kernel), .inr hrecipe, hserial, hssh⟩
  · have hmachine : IsMachine h' o' "m" := .given rfl
    have habsent : h'.isPresent (.ofString "i") = false := by decide +kernel
    have hclear : ∀ machine, IsMachine h' o' machine → PathsClear h' o' machine := by
      intro machine _
      refine (pathsClear_own rfl).2 ⟨fun _ _ => .inr rfl, fun hpresent => ?_⟩
      cases habsent.symm.trans hpresent
    obtain ⟨-, hsucceeds⟩ := launch_requires (.known false) o' h' (fun _ => rfl)
      (.established rfl rfl (by decide +kernel)) hclear
    have himage : h'.isPresent (imageSidecar (.ofString "/v")) = true := by decide +kernel
    exact hsucceeds.2 ⟨"m", hmachine, .inr (by decide +kernel), himage, hserial, hssh⟩

/-- In a deep directory all that is required can be there, and still its paths be too long. -/
theorem launch_requires_more_in_depth :
    ¬∀ (probe : Probe) (o : Options) (h : Host), h.files.IsGrounded h.cwd → CopiesNothing h o →
      (∃ machine, IsMachine h o machine ∧ HasBoot h o machine ∧ HasImage h o machine ∧
        Port.HasFree h.held Port.serialStart ∧ Port.HasFree h.held Port.sshStart) →
      ∃ launch, (h.run (prepare probe o)).result = .ok launch := by
  intro hclaim
  have hgrounded : Sample.deep.files.IsGrounded Sample.deep.cwd := fun _ => by decide +kernel
  have hboot : HasBoot Sample.deep Sample.inDepth "m" := .inr (by decide +kernel)
  have himage : HasImage Sample.deep Sample.inDepth "m" := .inr (by decide +kernel)
  obtain ⟨launch, hlaunch⟩ := hclaim (.known false) Sample.inDepth Sample.deep hgrounded
    (.plain rfl rfl) ⟨"m", .given rfl, hboot, himage, ⟨8990, by decide, by decide, by decide⟩,
      ⟨2222, by decide, by decide, by decide⟩⟩
  have hfailed : (Sample.deep.run (prepare (.known false) Sample.inDepth)).result
      = .error (.io .nameTooLong) := by
    decide +kernel
  cases hfailed.symm.trans hlaunch

end Preparation

end LaunchPlan
