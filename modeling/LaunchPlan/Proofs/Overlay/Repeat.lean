import LaunchPlan.Proofs.FileSystem.Canonical
import LaunchPlan.Proofs.Overlay.Established
import LaunchPlan.Proofs.Preparation.Presence

/-!
The same preparation once more, on the files that the first one left. Main statements:
`prepare_printed` and `prepare_supplied`, a real run prints nothing, and with its copies there it
makes none, and `run_twice`, the second run comes to the launch of the first, unless the disk image
is named by what only the first run made and has no canonical path.
-/

namespace LaunchPlan

/-- The options with the machine given. -/
def Options.pin (o : Options) (machine : String) : Options := { o with machine := .given machine }

namespace FileSystem

/-- What is present only since a copy was made leads to that copy. -/
theorem Copied.follow_of_new {cwd : Location} {source target p : Path} {place : Location}
    {file : Entry} {before after : FileSystem}
    (copied : Copied cwd source target place file before after)
    (absent : before.isPresent cwd p = false) (present : after.isPresent cwd p = true) :
    after.follow cwd p = .found place := by
  obtain ⟨_, _, rfl⟩ := copied.isFile
  have hwalk : after.follow cwd p = (before.follow cwd p).fill place := by
    obtain ⟨hfits, hafter⟩ := copied.after
    rw [hafter]
    exact followTo_add copied.gap .find cwd p
  unfold isPresent at absent present
  rw [hwalk] at present ⊢
  cases hbefore : before.follow cwd p with
  | found other => simp [hbefore, Walk.isFound] at absent
  | blocked other rest => simp [hbefore, Walk.isFound] at present
  | failed fault => simp [hbefore, Walk.isFound] at present
  | missing other rest =>
    rw [hbefore] at present
    simp only [Walk.fill] at present ⊢
    split at present
    · simp [Walk.isFound] at present
    next hplace =>
    split at present
    · next hrest => rw [if_neg hplace, if_pos hrest, not_ne_iff.1 hplace]
    · simp [Walk.isFound] at present

end FileSystem

namespace Preparation

variable {probe : Probe} {o : Options} {d : Deployment} {s t : Progress} {overlay : Path}
  {artifact : Artifact} {source sidecar : Path}

/-! A real run prints nothing. -/

theorem OwnOutcome.printed {r : Ending Path} (h : OwnOutcome artifact source sidecar overlay false s r) :
    r.progress.journal.printed = s.journal.printed := by
  cases h with
  | announced _ hdry => simp at hdry
  | reused | lost | sourceMissing | kept | copied | copyFailed => rfl

theorem ownStage_printed (s : Progress) (artifact : Artifact) (lookup : Except Fault Path)
    (sidecar overlay : Path) :
    (ownStage artifact lookup sidecar overlay false s).progress.journal.printed
      = s.journal.printed := by
  cases lookup with
  | error fault => rfl
  | ok source => exact (ownArtifact_outcome rfl).printed

theorem chooseBootImage_printed {r : Ending BootImage} (real : o.dryRun = false)
    (h : chooseBootImage o d s = r) : r.progress.journal.printed = s.journal.printed := by
  subst h
  rcases chooseBootImage_progress d with hsame | ⟨-, -, overlay, -, hown⟩
  · rw [hsame]
  · rw [hown, real, ownStage_printed]

theorem chooseImage_printed {r : Ending Path} (real : o.dryRun = false)
    (h : chooseImage o d s = r) : r.progress.journal.printed = s.journal.printed := by
  subst h
  rcases chooseImage_progress d with hsame | ⟨overlay, -, hown⟩
  · rw [hsame]
  · rw [hown, real, ownStage_printed]

theorem prepare_printed {r : Ending Launch} (real : o.dryRun = false)
    (h : prepare probe o s = r) : r.progress.journal.printed = s.journal.printed := by
  cases prepare_outcome h with
  | refused => rfl
  | unknownMachine => rfl
  | bootFailed _ _ hboot => exact chooseBootImage_printed real hboot
  | imageFailed _ _ hboot hdisk =>
    exact (chooseImage_printed real hdisk).trans (chooseBootImage_printed real hboot)
  | completed _ _ hboot hdisk =>
    rw [complete_printed]
    exact (chooseImage_printed real hdisk).trans (chooseBootImage_printed real hboot)

/-! With its own copies there, an overlay gets no new ones. -/

/-- Every copy that a preparation could make is there already. -/
structure Supplied (h : Host) (o : Options) : Prop where
  rom : ∀ overlay, o.overlay = some overlay → o.efi = false →
    h.isPresent (romSidecar overlay) = true
  image : ∀ overlay, o.overlay = some overlay → h.isPresent (imageSidecar overlay) = true

theorem prepare_supplied {r : Ending Launch} (supplied : Supplied s.host o)
    (h : prepare probe o s = r) : r.progress.host.files = s.host.files := by
  obtain ⟨mid, hrom, himage⟩ := prepare_files h
  have hmid : mid = s.host.files := by
    cases hrom with
    | still => rfl
    | made _ hefi _ copy =>
      have habsent := copy.absent
      rw [supplied.rom _ copy.given hefi] at habsent
      cases habsent
  rw [hmid] at himage
  generalize r.progress.host.files = after at himage ⊢
  cases himage with
  | still => rfl
  | made _ _ copy =>
    have habsent : s.host.isPresent (imageSidecar _) = false := copy.absent
    rw [supplied.image _ copy.given] at habsent
    cases habsent

theorem prepare_supplies {launch : Launch} (real : o.dryRun = false)
    (h : prepare probe o s = .ok launch t) : Supplied t.host o := by
  obtain ⟨himage, hboot⟩ := prepare_present (.inl real) h
  obtain ⟨hfits, machine, bootImage, image, u, v, -, hchosen, hdisk, hlast⟩ := prepare_ok h
  obtain ⟨_, _, -, rfl, -⟩ := complete_ok hlast
  refine ⟨fun overlay hgiven hefi => ?_, fun overlay hgiven => ?_⟩
  · have huboot : o.uboot = true := by simpa [hgiven] using hfits
    rw [chooseBootImage_uboot s hefi huboot, chooseBootloader_overlay s hgiven] at hchosen
    obtain ⟨rom, hrom, rfl⟩ := Ending.map_ok hchosen
    rw [← (ownStage_ok hrom).1]
    exact hboot hefi
  · rw [chooseImage_overlay u hgiven] at hdisk
    rw [← (ownStage_ok hdisk).1]
    exact himage

/-! The stages once more. -/

theorem plainStage_again {lookup : Except Fault Path} {path : Path} {dryRun : Bool} {w : Progress}
    (same : w.host = s.host) (h : plainStage artifact lookup dryRun s = .ok path t) :
    plainStage artifact lookup dryRun w = .ok path w := by
  cases lookup with
  | error fault => cases h
  | ok found =>
    simp only [plainStage, same] at h ⊢
    split at h
    · cases h
    · next hfound =>
      cases h
      rw [if_neg hfound]

/-- What an overlay's own copy is taken from, if it has to be made: there is an overlay that makes
this needless, or a source. -/
def IsUsable (h : Host) (overlay : Path) (lookup : Except Fault Path) : Prop :=
  ∃ source, lookup = .ok source ∧ (h.isPresent overlay = true ∨ h.isPresent source = true)

theorem IsUsable.later {h : Host} {files : FileSystem} {lookup : Except Fault Path}
    (usable : IsUsable h overlay lookup) (grows : h.files.Grows files) :
    IsUsable { h with files } overlay lookup := by
  obtain ⟨source, hlookup, hthere⟩ := usable
  exact ⟨source, hlookup, hthere.imp grows.isPresent grows.isPresent⟩

theorem ownStage_usable {lookup : Except Fault Path} {own : Path}
    (h : ownStage artifact lookup sidecar overlay false s = .ok own t) :
    IsUsable s.host overlay lookup := by
  cases lookup with
  | error fault => cases h
  | ok source =>
    refine ⟨source, rfl, ?_⟩
    cases ownArtifact_outcome h with
    | reused hthere => exact .inl hthere
    | kept _ husable => exact .inr (by simpa using husable)
    | announced _ hdry => simp at hdry
    | copied _ _ hsound => exact .inr hsound

/-- With the copy there nothing is left to do. -/
theorem ownStage_again {lookup : Except Fault Path} (s : Progress) (artifact : Artifact)
    (dryRun : Bool) (own : s.host.isPresent sidecar = true)
    (usable : IsUsable s.host overlay lookup) :
    ∃ t, ownStage artifact lookup sidecar overlay dryRun s = .ok sidecar t ∧ t.host = s.host := by
  obtain ⟨source, rfl, hthere⟩ := usable
  generalize hrun : ownStage artifact (.ok source) sidecar overlay dryRun s = r
  cases ownArtifact_outcome hrun with
  | reused => exact ⟨_, rfl, rfl⟩
  | kept => exact ⟨_, rfl, rfl⟩
  | lost _ hown => simp [own] at hown
  | sourceMissing hfresh _ habsent => simp [hfresh, habsent] at hthere
  | announced _ _ hown => simp [own] at hown
  | copied _ _ _ hown => simp [own] at hown
  | copyFailed _ _ _ hown => simp [own] at hown

theorem chooseBootImage_plain_again {bootImage : BootImage} {w : Progress}
    (plain : o.overlay = none) (same : w.host = s.host)
    (h : chooseBootImage o d s = .ok bootImage t) : chooseBootImage o d w = .ok bootImage w := by
  cases hefi : o.efi with
  | true =>
    rw [chooseBootImage_efi s hefi] at h
    cases h
    exact chooseBootImage_efi w hefi
  | false =>
    cases huboot : o.uboot with
    | false =>
      rw [chooseBootImage_kernel s hefi huboot, chooseKernel_apply] at h
      obtain ⟨kernel, hkernel, rfl⟩ := Ending.map_ok h
      rw [chooseBootImage_kernel w hefi huboot, chooseKernel_apply, same,
        plainStage_again same hkernel, Ending.map]
    | true =>
      rw [chooseBootImage_uboot s hefi huboot, chooseBootloader_plain s plain] at h
      obtain ⟨rom, hrom, rfl⟩ := Ending.map_ok h
      rw [chooseBootImage_uboot w hefi huboot, chooseBootloader_plain w plain, same,
        plainStage_again same hrom, Ending.map]

theorem chooseImage_plain_again {image : Path} {w : Progress} (plain : o.overlay = none)
    (same : w.host = s.host) (h : chooseImage o d s = .ok image t) :
    chooseImage o d w = .ok image w := by
  rw [chooseImage_plain s plain] at h
  rw [chooseImage_plain w plain, same]
  exact plainStage_again same h

theorem chooseBootImage_usable {bootImage : BootImage} (real : o.dryRun = false)
    (given : o.overlay = some overlay) (uboot : o.uboot = true)
    (h : chooseBootImage o d s = .ok bootImage t) :
    bootImage = establishedBoot o overlay ∧
      (o.efi = false → IsUsable s.host overlay (romSource s.host o d)) := by
  unfold establishedBoot
  cases hefi : o.efi with
  | true =>
    rw [chooseBootImage_efi s hefi] at h
    cases h
    simp
  | false =>
    rw [chooseBootImage_uboot s hefi uboot, chooseBootloader_overlay s given, real] at h
    obtain ⟨rom, hrom, rfl⟩ := Ending.map_ok h
    exact ⟨by simp [(ownStage_ok hrom).1], fun _ => ownStage_usable hrom⟩

theorem chooseBootImage_own_again (s : Progress) (given : o.overlay = some overlay)
    (uboot : o.uboot = true) (supplied : Supplied s.host o)
    (usable : o.efi = false → IsUsable s.host overlay (romSource s.host o d)) :
    ∃ t, chooseBootImage o d s = .ok (establishedBoot o overlay) t ∧ t.host = s.host := by
  unfold establishedBoot
  cases hefi : o.efi with
  | true => exact ⟨s, by simp [chooseBootImage_efi s hefi], rfl⟩
  | false =>
    rw [chooseBootImage_uboot s hefi uboot, chooseBootloader_overlay s given]
    obtain ⟨t, hrun, hhost⟩ := ownStage_again s .ubootImage o.dryRun
      (supplied.rom overlay given hefi) (usable hefi)
    exact ⟨t, by simp [hrun, Ending.map], hhost⟩

theorem chooseImage_own_again (s : Progress) (given : o.overlay = some overlay)
    (supplied : Supplied s.host o) (usable : IsUsable s.host overlay (imageSource s.host o d)) :
    ∃ t, chooseImage o d s = .ok (imageSidecar overlay) t ∧ t.host = s.host := by
  rw [chooseImage_overlay s given]
  exact ownStage_again s .osImage o.dryRun (supplied.image overlay given) usable

/-- The disk image is still usable after its copy was made, if it still has a path. The path can be
another one now: that of the copy itself. -/
theorem IsUsable.image_later {h : Host} {place : Location} {file : Entry} {after : FileSystem}
    {target : Path} (usable : IsUsable h overlay (imageSource h o d))
    (copied : FileSystem.Copied h.cwd source target place file h.files after)
    (named : ∃ p, imageSource { h with files := after } o d = .ok p) :
    IsUsable { h with files := after } overlay (imageSource { h with files := after } o d) := by
  have hlater := usable.later copied.grows
  cases hbefore : h.isPresent (.ofString o.imageName) with
  | true =>
    have hafter : Host.isPresent { h with files := after } (.ofString o.imageName) = true :=
      copied.grows.isPresent hbefore
    rw [imageSource_of_present hbefore] at hlater
    rwa [imageSource_of_present hafter, copied.grows.canonical_eq hbefore]
  | false =>
    cases hafter : Host.isPresent { h with files := after } (.ofString o.imageName) with
    | false =>
      rw [imageSource_of_absent hbefore] at hlater
      rwa [imageSource_of_absent hafter]
    | true =>
      rw [imageSource_of_present hafter] at named ⊢
      obtain ⟨p, hp⟩ := named
      have hfound := copied.follow_of_new hbefore hafter
      have hfile : after.get? place ≠ some .directory := by
        obtain ⟨_, _, rfl⟩ := copied.isFile
        simp [copied.get?]
      have hshort := FileSystem.canonical_short hp hfound hfile
      have hagain := FileSystem.follow_canonical hp hfound hshort h.cwd
      exact ⟨p, hp, .inr (by simp [Host.isPresent, FileSystem.isPresent, hagain, Walk.isFound])⟩

theorem chooseImage_usable {image : Path} (real : o.dryRun = false)
    (given : o.overlay = some overlay) (h : chooseImage o d s = .ok image t)
    (named : ∃ p, imageSource t.host o d = .ok p) :
    IsUsable t.host overlay (imageSource t.host o d) := by
  have husable : IsUsable s.host overlay (imageSource s.host o d) := by
    rw [chooseImage_overlay s given, real] at h
    exact ownStage_usable h
  rcases chooseImage_host (o := o) (s := s) d with hsame | hmade
  · rw [h, Ending.progress_ok] at hsame
    rwa [hsame]
  · obtain ⟨_, _, _, after, hcopy, hhost⟩ := hmade
    obtain ⟨_, -, hcopied⟩ := hcopy.copied
    rw [h, Ending.progress_ok] at hhost
    rw [hhost] at named ⊢
    exact husable.image_later hcopied named

/-- A last stage comes to the same launch on the same host, if the probe says the same. -/
theorem complete_again {again : Probe} {machine : String} {bootImage : BootImage} {image : Path}
    {launch : Launch} {w : Progress} (same : w.host = s.host)
    (alike : o.kvmOn again t.host = o.kvmOn probe t.host)
    (h : complete probe o machine bootImage image s = .ok launch t) :
    ∃ u, complete again o machine bootImage image w = .ok launch u := by
  obtain ⟨serialPort, sshPort, hports, hlaunch, hhost⟩ := complete_ok h
  rw [hhost] at alike
  rw [complete_apply, same, hports]
  simp only [Progress.logged_host, Progress.drawn_host, same, alike]
  exact ⟨_, by rw [hlaunch, hhost]⟩

/-! The whole run once more. -/

/-- The name of the disk image is the path of something only since the launch was prepared, and of
something without a canonical path. -/
structure NamedLate (before after : Host) (o : Options) : Prop where
  absent : before.isPresent (.ofString o.imageName) = false
  present : after.isPresent (.ofString o.imageName) = true
  pathless : ∀ p, after.files.canonical after.cwd (.ofString o.imageName) ≠ .ok p

theorem chooseImage_named {image : Path} (h : chooseImage o d s = .ok image t) :
    ∃ p, imageSource s.host o d = .ok p := by
  generalize hrun : (.ok image t : Ending Path) = r at h
  cases chooseImage_run h with
  | plain =>
    cases hsource : imageSource s.host o d with
    | ok p => exact ⟨p, rfl⟩
    | error fault =>
      rw [hsource] at hrun
      cases hrun
  | own => exact (ownStage_ok hrun.symm).2

theorem prepare_pin {machine : String} (w : Progress) (fits : o.uboot = true ∨ o.overlay = none) :
    prepare probe (o.pin machine) w = match chooseBootImage o ⟨o.dir, machine⟩ w with
      | .error e t => .error e t
      | .ok bootImage t =>
        match chooseImage o ⟨o.dir, machine⟩ t with
        | .error e u => .error e u
        | .ok image u => complete probe o machine bootImage image u :=
  prepare_apply (o := o.pin machine) w fits

section Again

variable {again : Probe} {launch : Launch} {u v w : Progress}

/-- The boot image is chosen once more on the files that a run has left. -/
theorem Stages.boot_again (stages : Stages probe o s t launch u v) (real : o.dryRun = false)
    (same : w.host = v.host) (supplied : Supplied w.host o) (given : o.overlay = some overlay) :
    ∃ u', chooseBootImage o ⟨o.dir, launch.machine⟩ w = .ok launch.bootImage u' ∧
      u'.host = w.host := by
  have huboot : o.uboot = true := by simpa [given] using stages.fits
  obtain ⟨hboot, husable⟩ := chooseBootImage_usable real given huboot stages.boot
  rw [hboot]
  apply chooseBootImage_own_again w given huboot supplied
  intro efi
  have hlater := (husable efi).later stages.grows
  rw [same, stages.imaged]
  exact hlater

theorem prepare_again_plain (stages : Stages probe o s t launch u v) (plain : o.overlay = none)
    (same : w.host = v.host) (alike : o.kvmOn again t.host = o.kvmOn probe t.host) :
    ∃ z, prepare again (o.pin launch.machine) w = .ok launch z := by
  obtain ⟨hu, hv⟩ := stages.unchanged plain
  have hboot := chooseBootImage_plain_again plain (same.trans hv) stages.boot
  have hdisk := chooseImage_plain_again plain ((same.trans hv).trans hu.symm) stages.disk
  obtain ⟨z, hlast⟩ := complete_again same alike stages.last
  exact ⟨z, by rw [prepare_pin w stages.fits]; simp only [hboot, hdisk, hlast]⟩

theorem prepare_again_own (stages : Stages probe o s t launch u v) (real : o.dryRun = false)
    (given : o.overlay = some overlay) (same : w.host = v.host) (supplied : Supplied w.host o)
    (named : ∃ p, imageSource v.host o ⟨o.dir, launch.machine⟩ = .ok p)
    (alike : o.kvmOn again t.host = o.kvmOn probe t.host) :
    ∃ z, prepare again (o.pin launch.machine) w = .ok launch z := by
  obtain ⟨u', hboot, hu'⟩ := stages.boot_again real same supplied given
  have husable := chooseImage_usable real given stages.disk named
  have himage : launch.image = imageSidecar overlay := by
    have hdisk := stages.disk
    rw [chooseImage_overlay u given] at hdisk
    exact (ownStage_ok hdisk).1
  rw [← same, ← hu'] at husable
  rw [← hu'] at supplied
  obtain ⟨v', hdisk, hv'⟩ := chooseImage_own_again u' given supplied husable
  rw [← himage] at hdisk
  obtain ⟨z, hlast⟩ := complete_again ((hv'.trans hu').trans same) alike stages.last
  exact ⟨z, by rw [prepare_pin w stages.fits]; simp only [hboot, hdisk, hlast]⟩

/-- An image that was named before the run is still named after it. -/
theorem Stages.named (stages : Stages probe o s t launch u v) (timely : ¬NamedLate s.host v.host o) :
    ∃ p, imageSource v.host o ⟨o.dir, launch.machine⟩ = .ok p := by
  rw [imageSource_ok_iff]
  intro hpresent
  by_contra hpathless
  refine timely ⟨?_, hpresent, fun p hp => hpathless ⟨p, hp⟩⟩
  by_contra hbefore
  rw [Bool.not_eq_false] at hbefore
  have hthen : u.host.isPresent (.ofString o.imageName) = true := by
    rw [stages.booted]
    exact stages.rom.grows.isPresent hbefore
  obtain ⟨p, hp⟩ := imageSource_ok_iff.1 (chooseImage_named stages.disk) hthen
  apply hpathless
  rw [stages.imaged]
  rw [stages.booted] at hp hthen
  exact ⟨p, (stages.image.grows.canonical_eq hthen).trans hp⟩

theorem NamedLate.unnamed {before after : Host} (late : NamedLate before after o) :
    ∃ fault, after.files.canonical after.cwd (.ofString o.imageName) = .error fault ∧
      imageSource after o d = .error fault := by
  rw [imageSource_of_present late.present]
  cases hpath : after.files.canonical after.cwd (.ofString o.imageName) with
  | ok p => exact absurd hpath (late.pathless p)
  | error fault => exact ⟨fault, rfl, rfl⟩

theorem NamedLate.given (late : NamedLate s.host v.host o)
    (stages : Stages probe o s t launch u v) : ∃ overlay, o.overlay = some overlay := by
  cases hgiven : o.overlay with
  | some overlay => exact ⟨overlay, rfl⟩
  | none =>
    have hpresent := late.present
    rw [(stages.unchanged hgiven).2, late.absent] at hpresent
    cases hpresent

/-- The second run comes to the launch of the first, if the name of the disk image still means what
it meant. -/
theorem prepare_again_timely (again : Probe) (stages : Stages probe o s t launch u v)
    (real : o.dryRun = false) (same : w.host = v.host) (supplied : Supplied w.host o)
    (alike : o.kvmOn again t.host = o.kvmOn probe t.host) (timely : ¬NamedLate s.host v.host o) :
    ∃ z, prepare again (o.pin launch.machine) w = .ok launch z := by
  cases hgiven : o.overlay with
  | none => exact prepare_again_plain stages hgiven same alike
  | some overlay =>
    exact prepare_again_own stages real hgiven same supplied (stages.named timely) alike

/-- A disk image without a path ends the second run, although its copy is there. -/
theorem prepare_again_late (again : Probe) (stages : Stages probe o s t launch u v)
    (real : o.dryRun = false) (same : w.host = v.host) (supplied : Supplied w.host o)
    (late : NamedLate s.host v.host o) :
    ∃ fault z, v.host.files.canonical v.host.cwd (.ofString o.imageName) = .error fault ∧
      prepare again (o.pin launch.machine) w = .error (.io fault) z := by
  obtain ⟨overlay, hgiven⟩ := late.given stages
  obtain ⟨fault, hpath, hunnamed⟩ := late.unnamed (d := ⟨o.dir, launch.machine⟩)
  obtain ⟨u', hboot, hu'⟩ := stages.boot_again real same supplied hgiven
  have hdisk : chooseImage o ⟨o.dir, launch.machine⟩ u' = .error (.io fault) u' := by
    rw [chooseImage_overlay u' hgiven, hu', same, hunnamed]
    rfl
  exact ⟨fault, u', hpath, by rw [prepare_pin w stages.fits]; simp only [hboot, hdisk]⟩

end Again

/-- A host with the files that a preparation has left, and all else as it was. -/
def after (h : Host) (probe : Probe) (o : Options) : Host :=
  { h with files := (h.run (prepare probe o)).host.files }

/-- A real run can be repeated with its machine given: the second run prints nothing, changes no
file, and comes to the launch of the first. It fails in one case, when what the first run made
gives a meaning to the name of the disk image, but no canonical path. -/
theorem run_twice (probe again : Probe) (o : Options) (h : Host) {launch : Launch}
    (real : o.dryRun = false) (decided : (h.run (prepare probe o)).result = .ok launch)
    (alike : o.kvmOn again (h.run (prepare probe o)).host
      = o.kvmOn probe (h.run (prepare probe o)).host) :
    let first := h.run (prepare probe o)
    let later := after h probe o
    let second := later.run (prepare again (o.pin launch.machine))
    second.host.files = first.host.files ∧ second.journal.printed = [] ∧
    (second.result = .ok launch ↔ ¬NamedLate h later o) ∧
    (NamedLate h later o → ∃ fault,
      later.files.canonical later.cwd (.ofString o.imageName) = .error fault ∧
      second.result = .error (.io fault)) := by
  intro first later second
  obtain ⟨t, hend, hrun⟩ := Host.run_ok decided
  have hfirst : first.host = t.host := congrArg Outcome.host hrun
  have hsecond : second = Ending.outcome (prepare again (o.pin launch.machine) later.begin) :=
    Host.run_eq _ _
  obtain ⟨u, v, stages⟩ := prepare_stages hend
  have hlater : later = v.host := by
    rw [stages.imaged, ← hfirst]
    rfl
  have hsupplied : Supplied later o := by
    have hsupplies := prepare_supplies real hend
    rw [stages.host_eq] at hsupplies
    rw [hlater]
    exact ⟨hsupplies.rom, hsupplies.image⟩
  rw [hrun] at alike
  have hfails (late : NamedLate h later o) : ∃ fault,
      later.files.canonical later.cwd (.ofString o.imageName) = .error fault ∧
      second.result = .error (.io fault) := by
    rw [hlater] at late ⊢
    obtain ⟨fault, z, hpath, hz⟩ := prepare_again_late (w := later.begin) again stages real hlater
      hsupplied late
    rw [hsecond, hz]
    exact ⟨fault, hpath, rfl⟩
  refine ⟨?_, ?_, ⟨?_, ?_⟩, hfails⟩
  · rw [hsecond, Ending.outcome_host]
    exact prepare_supplied (s := later.begin) (o := o.pin launch.machine)
      ⟨hsupplied.rom, hsupplied.image⟩ rfl
  · rw [hsecond, Ending.outcome_journal]
    exact prepare_printed (o := o.pin launch.machine) real rfl
  · intro hsame late
    obtain ⟨fault, -, herror⟩ := hfails late
    rw [herror] at hsame
    cases hsame
  · intro htimely
    rw [hlater] at htimely
    obtain ⟨z, hz⟩ := prepare_again_timely (w := later.begin) again stages real hlater hsupplied
      alike htimely
    rw [hsecond, hz]
    rfl

/-- The second run of a first use finds the copies of the first and comes to the same launch. -/
theorem run_twice_sample :
    let launch := Sample.options.launch "m" (.bios (.ofString "/v.u-boot.rom")) (.ofString "/v.img")
      (⟨0x52, 0x54, 0, 0, 0, 1⟩, none) 8990 2222 false
    let later := after Sample.complete (.known false) Sample.options
    (Sample.complete.run (prepare (.known false) Sample.options)).result = .ok launch ∧
      (later.run (prepare (.known true) (Sample.options.pin launch.machine))).result
        = .ok launch := by
  intro launch later
  have hdecided : (Sample.complete.run (prepare (.known false) Sample.options)).result
      = .ok launch := by
    decide +kernel
  have hgiven : Sample.options.kvm = .given false := rfl
  have htwice := run_twice (.known false) (.known true) Sample.options Sample.complete rfl
    hdecided (by rw [Options.kvmOn_of_given hgiven, Options.kvmOn_of_given hgiven])
  have htimely : ¬NamedLate Sample.complete later Sample.options := by
    intro late
    have hpresent := late.present
    revert hpresent
    decide +kernel
  exact ⟨hdecided, htwice.2.2.1.2 htimely⟩

end Preparation

namespace Sample

/-- Options that name the disk image by the overlay. -/
def overlayAsImage : Options :=
  { options with
    dir := .ofString "."
    imageName := "v"
    bootloader := some (.ofString "r")
    overlay := some (.ofString "v") }

end Sample

namespace Preparation

/-- A first use in a deep directory cannot be repeated: the overlay is there now, and names the disk
image, but has no path that is short enough. -/
theorem run_twice_needs_path :
    ¬∀ (probe : Probe) (o : Options) (h : Host) (launch : Launch),
      o.dryRun = false → (h.run (prepare probe o)).result = .ok launch →
      ((after h probe o).run (prepare probe (o.pin launch.machine))).result = .ok launch := by
  intro hclaim
  have hfirst : (Sample.deep.run (prepare (.known false) Sample.overlayAsImage)).result
      = .ok (Sample.overlayAsImage.launch "m" (.bios (.ofString "v.u-boot.rom")) (.ofString "v.img")
        (⟨0x52, 0x54, 0, 0, 0, 1⟩, none) 8990 2222 false) := by
    decide +kernel
  have hsecond := hclaim (.known false) Sample.overlayAsImage Sample.deep _ rfl hfirst
  revert hsecond
  decide +kernel

end Preparation

end LaunchPlan
