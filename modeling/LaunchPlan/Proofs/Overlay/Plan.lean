import LaunchPlan.Proofs.Overlay.DryRun

/-!
The copies that a dry run prints, beside those that the real run makes. Each stage has the same
copy due in both, as long as the two stand on hosts that answer alike; only the copy of the U-Boot
image comes between them. Main statement: `plan_is_executed`, what is printed is what is done, or
that copy has brought a path into existence that the choice of the disk image looks at.
-/

namespace LaunchPlan

/-- The copy that an event reports. -/
def Event.copy? : Event → Option PlannedCopy
  | .copied _ source sidecar => some ⟨source, sidecar⟩
  | _ => none

/-- The copies that were reported, in their order. -/
def Journal.copies (j : Journal) : List PlannedCopy := j.events.filterMap Event.copy?

@[simp] theorem Progress.copies_logged (s : Progress) (events : List Event) :
    (s.logged events).journal.copies = s.journal.copies ++ events.filterMap Event.copy? := by
  simp [Journal.copies, Progress.logged]

@[simp] theorem Progress.copies_withFiles (s : Progress) (files : FileSystem) :
    (s.withFiles files).journal.copies = s.journal.copies := rfl

/-- The events of the probe, if a run has to ask it. -/
def Options.inquiry (o : Options) (probe : Probe) (h : Host) : List Event :=
  match o.kvm with
  | .given _ => []
  | .detect => (probe h).events

theorem Options.inquiry_of_given {o : Options} {kvm : Bool} (given : o.kvm = .given kvm)
    (probe : Probe) (h : Host) : o.inquiry probe h = [] := by
  simp only [inquiry, given]

@[simp] theorem Progress.copies_asked (s : Progress) (probe : Probe) (o : Options) :
    (s.asked probe o).journal.copies
      = s.journal.copies ++ (o.inquiry probe s.host).filterMap Event.copy? := by
  unfold Progress.asked Options.inquiry
  cases o.kvm <;> simp [Journal.copies]

@[simp] theorem Progress.copies_drawn (s : Progress) (o : Options) :
    (s.drawn o).journal.copies = s.journal.copies := rfl

/-- Copies made one after the other. -/
inductive Executes (cwd : Location) : List PlannedCopy → FileSystem → FileSystem → Prop
  | done {fs : FileSystem} : Executes cwd [] fs fs
  | copy {c : PlannedCopy} {plan : List PlannedCopy} {fs mid after : FileSystem}
      (first : fs.copy cwd c.source c.target = .ok mid) (rest : Executes cwd plan mid after) :
      Executes cwd (c :: plan) fs after

theorem Executes.append {cwd : Location} {plan more : List PlannedCopy}
    {fs mid after : FileSystem} (h : Executes cwd plan fs mid) (h' : Executes cwd more mid after) :
    Executes cwd (plan ++ more) fs after := by
  induction h with
  | done => exact h'
  | copy first _ ih => exact .copy first (ih h')

namespace Preparation

variable {probe : Probe} {o : Options} {s t u : Progress} {due later : List PlannedCopy}

/-- From one progress to another copies were printed, and nothing happened to the host. -/
structure Announces (due : List PlannedCopy) (s t : Progress) : Prop where
  host : t.host = s.host
  printed : t.journal.printed = s.journal.printed ++ due

/-- From one progress to another copies were made and reported. -/
structure Performs (due : List PlannedCopy) (s t : Progress) : Prop where
  executes : Executes s.host.cwd due s.host.files t.host.files
  copies : t.journal.copies = s.journal.copies ++ due

theorem Announces.trans (h : Announces due s t) (h' : Announces later t u) :
    Announces (due ++ later) s u where
  host := h'.host.trans h.host
  printed := by rw [h'.printed, h.printed, List.append_assoc]

theorem Performs.trans (cwd : t.host.cwd = s.host.cwd) (h : Performs due s t)
    (h' : Performs later t u) : Performs (due ++ later) s u where
  executes := by
    have hlater := h'.executes
    rw [cwd] at hlater
    exact h.executes.append hlater
  copies := by rw [h'.copies, h.copies, List.append_assoc]

/-- The copy that is due of an artifact: none once the overlay or its own copy is there. -/
def dueCopy (h : Host) (source sidecar overlay : Path) : List PlannedCopy :=
  if h.isPresent overlay = true ∨ h.isPresent sidecar = true then [] else [⟨source, sidecar⟩]

theorem dueCopy_target (h : Host) (source sidecar overlay : Path) :
    ((dueCopy h source sidecar overlay).map PlannedCopy.target).Sublist [sidecar] := by
  unfold dueCopy
  split
  · exact List.nil_sublist _
  · exact List.Sublist.refl _

section OwnCopy

variable {artifact : Artifact} {source sidecar overlay own : Path} {lookup : Except Fault Path}

theorem dueCopy_of_there (there : s.host.isPresent overlay = true) :
    dueCopy s.host source sidecar overlay = [] := if_pos (.inl there)

theorem dueCopy_of_own (present : s.host.isPresent sidecar = true) :
    dueCopy s.host source sidecar overlay = [] := if_pos (.inr present)

theorem dueCopy_of_fresh (fresh : s.host.isPresent overlay = false)
    (absent : s.host.isPresent sidecar = false) :
    dueCopy s.host source sidecar overlay = [⟨source, sidecar⟩] := if_neg (by simp [fresh, absent])

theorem ownArtifact_announces
    (h : ownArtifact artifact source sidecar overlay true s = .ok own t) :
    Announces (dueCopy s.host source sidecar overlay) s t := by
  cases ownArtifact_outcome h with
  | reused hthere _ =>
    rw [dueCopy_of_there hthere]
    exact ⟨rfl, by simp⟩
  | kept _ _ hown =>
    rw [dueCopy_of_own hown]
    exact ⟨rfl, by simp⟩
  | announced hfresh _ hown =>
    rw [dueCopy_of_fresh hfresh hown]
    exact ⟨rfl, rfl⟩
  | copied _ hreal => cases hreal

theorem ownArtifact_performs
    (h : ownArtifact artifact source sidecar overlay false s = .ok own t) :
    Performs (dueCopy s.host source sidecar overlay) s t := by
  cases ownArtifact_outcome h with
  | reused hthere _ =>
    rw [dueCopy_of_there hthere]
    exact ⟨.done, by simp [Event.copy?]⟩
  | kept _ husable hown =>
    rw [dueCopy_of_own hown]
    have hsource : s.host.isPresent source = true := by simpa using husable
    exact ⟨.done, by simp [sourceEvents, hsource, Event.copy?]⟩
  | announced _ hdry => cases hdry
  | copied hfresh _ _ hown hcopy =>
    rw [dueCopy_of_fresh hfresh hown]
    exact ⟨.copy hcopy .done, by simp [Event.copy?]⟩

/-- The copy that is due of the artifact that is where `lookup` says. -/
def dueOf (h : Host) (lookup : Except Fault Path) (sidecar overlay : Path) : List PlannedCopy :=
  match lookup with
  | .ok source => dueCopy h source sidecar overlay
  | .error _ => []

theorem dueOf_target (h : Host) (lookup : Except Fault Path) (sidecar overlay : Path) :
    ((dueOf h lookup sidecar overlay).map PlannedCopy.target).Sublist [sidecar] := by
  unfold dueOf
  split
  · exact dueCopy_target h _ sidecar overlay
  · exact List.nil_sublist _

theorem ownStage_announces (h : ownStage artifact lookup sidecar overlay true s = .ok own t) :
    Announces (dueOf s.host lookup sidecar overlay) s t := by
  cases lookup with
  | error fault => cases h
  | ok source => exact ownArtifact_announces h

theorem ownStage_performs (h : ownStage artifact lookup sidecar overlay false s = .ok own t) :
    Performs (dueOf s.host lookup sidecar overlay) s t := by
  cases lookup with
  | error fault => cases h
  | ok source => exact ownArtifact_performs h

end OwnCopy

def romDue (h : Host) (o : Options) (machine : String) (overlay : Path) : List PlannedCopy :=
  if o.efi then [] else dueOf h (romSource h o ⟨o.dir, machine⟩) (romSidecar overlay) overlay

def imageDue (h : Host) (o : Options) (machine : String) (overlay : Path) : List PlannedCopy :=
  dueOf h (imageSource h o ⟨o.dir, machine⟩) (imageSidecar overlay) overlay

section Stages

variable {machine : String} {overlay image : Path} {bootImage : BootImage}

/-- Both copies go to the overlay's own, that of the U-Boot image first. -/
theorem due_targets (h later : Host) (o : Options) (machine : String) (overlay : Path) :
    ((romDue h o machine overlay ++ imageDue later o machine overlay).map
      PlannedCopy.target).Sublist [romSidecar overlay, imageSidecar overlay] := by
  have hrom : ((romDue h o machine overlay).map PlannedCopy.target).Sublist
      [romSidecar overlay] := by
    unfold romDue
    split
    · exact List.nil_sublist _
    · exact dueOf_target h _ _ overlay
  rw [List.map_append]
  exact hrom.append (dueOf_target later _ _ overlay)

theorem chooseBootImage_announces (given : o.overlay = some overlay) (uboot : o.uboot = true)
    (h : chooseBootImage (o.dry true) ⟨o.dir, machine⟩ s = .ok bootImage t) :
    Announces (romDue s.host o machine overlay) s t := by
  unfold romDue
  cases hefi : o.efi with
  | true =>
    rw [(chooseBootImage_efi_ok (o := o.dry true) hefi h).2]
    exact ⟨rfl, by simp⟩
  | false =>
    rw [chooseBootImage_uboot (o := o.dry true) s hefi uboot,
      chooseBootloader_overlay (o := o.dry true) s given] at h
    obtain ⟨rom, hrom, -⟩ := Ending.map_ok h
    exact ownStage_announces hrom

theorem chooseBootImage_performs (given : o.overlay = some overlay) (uboot : o.uboot = true)
    (h : chooseBootImage (o.dry false) ⟨o.dir, machine⟩ s = .ok bootImage t) :
    Performs (romDue s.host o machine overlay) s t := by
  unfold romDue
  cases hefi : o.efi with
  | true =>
    rw [(chooseBootImage_efi_ok (o := o.dry false) hefi h).2]
    exact ⟨.done, by simp⟩
  | false =>
    rw [chooseBootImage_uboot (o := o.dry false) s hefi uboot,
      chooseBootloader_overlay (o := o.dry false) s given] at h
    obtain ⟨rom, hrom, -⟩ := Ending.map_ok h
    exact ownStage_performs hrom

theorem chooseImage_announces (given : o.overlay = some overlay)
    (h : chooseImage (o.dry true) ⟨o.dir, machine⟩ s = .ok image t) :
    Announces (imageDue s.host o machine overlay) s t := by
  rw [chooseImage_overlay (o := o.dry true) s given] at h
  exact ownStage_announces h

theorem chooseImage_performs (given : o.overlay = some overlay)
    (h : chooseImage (o.dry false) ⟨o.dir, machine⟩ s = .ok image t) :
    Performs (imageDue s.host o machine overlay) s t := by
  rw [chooseImage_overlay (o := o.dry false) s given] at h
  exact ownStage_performs h

theorem pairEvents_copies (held : List Port) :
    (Port.pairEvents held).filterMap Event.copy? = [] := by
  rw [List.filterMap_eq_nil_iff]
  intro event hevent
  unfold Port.pairEvents Port.searchEvents at hevent
  cases event with
  | copied => split at hevent <;> simp_all
  | _ => rfl

/-- The last stage prints nothing, and no copy is reported in it but by the probe. -/
theorem complete_journal {launch : Launch}
    (h : complete probe o machine bootImage image s = .ok launch t) :
    t.journal.printed = s.journal.printed ∧
      t.journal.copies
        = s.journal.copies ++ (o.inquiry probe t.host).filterMap Event.copy? := by
  obtain ⟨_, _, hports, -, hhost⟩ := complete_ok h
  rw [complete_apply, hports] at h
  obtain ⟨-, rfl⟩ := EStateM.Result.ok.inj h
  rw [hhost]
  constructor
  · simp [Progress.drawn]
  · simp [pairEvents_copies, Event.copy?]

/-- What is due of the disk image is the same on two hosts that agree on the paths looked at. -/
theorem imageDue_later {h : Host} {files : FileSystem} (grows : h.files.Grows files)
    (same : ∀ p ∈ [overlay, .ofString o.imageName, imageSidecar overlay],
      { h with files }.isPresent p = h.isPresent p) :
    imageDue { h with files } o machine overlay = imageDue h o machine overlay := by
  have hoverlay := same overlay (by simp)
  have hname := same (.ofString o.imageName) (by simp)
  have hsidecar := same (imageSidecar overlay) (by simp)
  have hsource : imageSource { h with files } o ⟨o.dir, machine⟩
      = imageSource h o ⟨o.dir, machine⟩ := by
    cases hpresent : h.isPresent (.ofString o.imageName) with
    | true =>
      rw [imageSource_of_present hpresent, imageSource_of_present (hname.trans hpresent)]
      exact grows.canonical_eq hpresent
    | false => rw [imageSource_of_absent hpresent, imageSource_of_absent (hname.trans hpresent)]
  unfold imageDue dueOf dueCopy
  rw [hsource, hoverlay, hsidecar]

variable {launch : Launch} {v : Progress}

theorem Stages.announced (stages : Stages probe (o.dry true) s t launch u v)
    (given : o.overlay = some overlay) :
    t.journal.printed = s.journal.printed
      ++ (romDue s.host o launch.machine overlay ++ imageDue s.host o launch.machine overlay) := by
  have huboot : o.uboot = true := by simpa [Options.dry, given] using stages.fits
  have hrom := chooseBootImage_announces given huboot stages.boot
  have himage := chooseImage_announces given stages.disk
  rw [hrom.host] at himage
  rw [(complete_journal stages.last).1, (hrom.trans himage).printed]

theorem Stages.performed (stages : Stages probe (o.dry false) s t launch u v)
    (given : o.overlay = some overlay) :
    Executes s.host.cwd
        (romDue s.host o launch.machine overlay ++ imageDue u.host o launch.machine overlay)
        s.host.files t.host.files ∧
      t.journal.copies = s.journal.copies
        ++ (romDue s.host o launch.machine overlay ++ imageDue u.host o launch.machine overlay)
        ++ (o.inquiry probe t.host).filterMap Event.copy? := by
  have huboot : o.uboot = true := by simpa [Options.dry, given] using stages.fits
  have hcwd : u.host.cwd = s.host.cwd := by rw [stages.booted]
  have hboth := (chooseBootImage_performs given huboot stages.boot).trans hcwd
    (chooseImage_performs given stages.disk)
  have hfiles : v.host.files = t.host.files := by rw [stages.imaged]
  constructor
  · rw [← hfiles]
    exact hboth.executes
  · rw [(complete_journal stages.last).2, hboth.copies]
    rfl

/-- The copy of the U-Boot image, made on one host, brings a path into existence on the next that the
choice of the disk image looks at. -/
structure RomInterferes (h later : Host) (o : Options) (machine : String) (overlay : Path) :
    Prop where
  efi : o.efi = false
  copied : ∃ place file, FirstRom h o machine overlay place file later.files
  found : ∃ p ∈ [overlay, .ofString o.imageName, imageSidecar overlay],
    h.isPresent p = false ∧ later.isPresent p = true

theorem Stages.imageDue_eq (stages : Stages probe (o.dry false) s t launch u v)
    (given : o.overlay = some overlay)
    (apart : ¬RomInterferes s.host u.host (o.dry false) launch.machine overlay) :
    imageDue u.host o launch.machine overlay = imageDue s.host o launch.machine overlay := by
  have hknown := stages.known
  have hrom := stages.rom
  rw [stages.booted] at apart ⊢
  generalize u.host.files = mid at hrom apart ⊢
  cases hrom with
  | still => rfl
  | made _ hefi hmachine copy =>
    -- A copy was made, so it is the one that does not interfere.
    cases hknown.symm.trans hmachine
    cases given.symm.trans copy.given
    apply imageDue_later copy.grows
    intro p hp
    cases hpresent : s.host.isPresent p with
    | true => exact copy.grows.isPresent hpresent
    | false =>
      rw [← Bool.not_eq_true]
      intro hlater
      exact apart ⟨hefi, ⟨_, _, copy⟩, p, hp, hpresent, hlater⟩

end Stages

/-- A dry run with an overlay prints the copies that the real run makes: the same ones in the same
order, that of the U-Boot image first. Otherwise the real run's copy of the U-Boot image has brought
the overlay, what the image is named by, or the copy of the disk image into existence. -/
theorem plan_is_executed (probe : Probe) (o : Options) (h : Host) {overlay : Path} {launch : Launch}
    (given : o.overlay = some overlay)
    (decided : (h.run (prepare probe (o.dry false))).result = .ok launch) :
    let real := h.run (prepare probe (o.dry false))
    let dry := h.run (prepare probe (o.dry true))
    let booted := Ending.progress (chooseBootImage (o.dry false) ⟨o.dir, launch.machine⟩ h.begin)
    let plan := dry.journal.printed
    (dry.journal.printedText = String.join (plan.map fun c =>
        "cp " ++ c.source.display ++ " " ++ c.target.display ++ "\n") ∧
      Executes h.cwd plan h.files real.host.files ∧
      real.journal.copies = plan ++ (o.inquiry probe real.host).filterMap Event.copy? ∧
      (plan.map PlannedCopy.target).Sublist [romSidecar overlay, imageSidecar overlay]) ∨
    RomInterferes h booted.host (o.dry false) launch.machine overlay := by
  intro real dry booted plan
  obtain ⟨t, hend, hreal⟩ := Host.run_ok decided
  obtain ⟨u, v, stages⟩ := prepare_stages hend
  obtain ⟨t', hdry, -⟩ := prepare_predicted hend
  obtain ⟨u', v', dryStages⟩ := prepare_stages hdry
  have hplan : plan = romDue h o launch.machine overlay ++ imageDue h o launch.machine overlay := by
    simp only [plan, dry, Host.run_eq, hdry, Ending.outcome]
    exact dryStages.announced given
  have hbooted : booted = u := congrArg Ending.progress stages.boot
  by_cases hinterferes : RomInterferes h booted.host (o.dry false) launch.machine overlay
  · exact .inr hinterferes
  · have hperformed := stages.performed given
    rw [hbooted] at hinterferes
    rw [stages.imageDue_eq given hinterferes] at hperformed
    obtain ⟨hexecutes, hcopies⟩ := hperformed
    simp only [real, hreal]
    refine .inl ⟨rfl, ?_, ?_, ?_⟩
    · rw [hplan]
      exact hexecutes
    · rw [hplan]
      exact hcopies
    · rw [hplan]
      exact due_targets h h o launch.machine overlay

theorem plan_is_executed_sample :
    let real := Sample.complete.run (prepare (.known false) (Sample.options.dry false))
    let dry := Sample.complete.run (prepare (.known false) (Sample.options.dry true))
    dry.journal.printedText
        = "cp /d/m/u-boot-qemux86-64.rom /v.u-boot.rom\ncp /d/m/i-m.wic /v.img\n" ∧
      real.journal.copies = dry.journal.printed := by
  intro real dry
  have hreal : real.result = .ok (Sample.options.launch "m" (.bios (.ofString "/v.u-boot.rom"))
      (.ofString "/v.img") (⟨0x52, 0x54, 0, 0, 0, 1⟩, none) 8990 2222 false) := by
    decide +kernel
  refine ⟨by decide +kernel, ?_⟩
  have hplan := plan_is_executed (.known false) Sample.options Sample.complete rfl hreal
  have hapart : ¬RomInterferes Sample.complete
      (Ending.progress (chooseBootImage (Sample.options.dry false) ⟨.ofString "/d", "m"⟩
        Sample.complete.begin)).host (Sample.options.dry false) "m" (.ofString "/v") := by
    rintro ⟨-, -, hfound⟩
    revert hfound
    decide +kernel
  have hcopies := (hplan.resolve_right hapart).2.2.1
  rwa [Options.inquiry_of_given rfl, List.filterMap_nil, List.append_nil] at hcopies

end Preparation

end LaunchPlan
