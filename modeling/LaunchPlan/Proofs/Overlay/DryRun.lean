import LaunchPlan.Proofs.Overlay.Established
import LaunchPlan.Proofs.Overlay.FirstUse

/-!
A dry run beside the real run of the same options on the same host. Main statements:
`prepare_dry_irrelevant`, once the overlay is there the two are one, and `dryRun_predicts`, what
a real run comes to is what the dry run came to.
-/

namespace LaunchPlan

/-- The options of a dry run, or of a real one. -/
def Options.dry (o : Options) (dryRun : Bool) : Options := { o with dryRun }

@[simp] theorem Options.dry_dir (o : Options) (dryRun : Bool) : (o.dry dryRun).dir = o.dir := rfl

namespace Preparation

variable {probe : Probe} {o : Options} {d : Deployment} {overlay : Path}

theorem chooseBootImage_dry_irrelevant (s : Progress) (given : o.overlay = some overlay)
    (there : s.host.isPresent overlay = true) (uboot : o.uboot = true) (a b : Bool) :
    chooseBootImage (o.dry a) d s = chooseBootImage (o.dry b) d s := by
  cases hefi : o.efi with
  | true =>
    rw [chooseBootImage_efi (o := o.dry a) s hefi, chooseBootImage_efi (o := o.dry b) s hefi]
  | false =>
    rw [chooseBootImage_uboot (o := o.dry a) s hefi uboot,
      chooseBootImage_uboot (o := o.dry b) s hefi uboot,
      chooseBootloader_there (o := o.dry a) s given there,
      chooseBootloader_there (o := o.dry b) s given there]
    rfl

theorem chooseImage_dry_irrelevant (s : Progress) (given : o.overlay = some overlay)
    (there : s.host.isPresent overlay = true) (a b : Bool) :
    chooseImage (o.dry a) d s = chooseImage (o.dry b) d s := by
  rw [chooseImage_there (o := o.dry a) s given there,
    chooseImage_there (o := o.dry b) s given there]
  rfl

/-- With an overlay that is there it makes no difference whether a run is dry. -/
theorem prepare_dry_irrelevant (s : Progress) (given : o.overlay = some overlay)
    (there : s.host.isPresent overlay = true) (a b : Bool) :
    prepare probe (o.dry a) s = prepare probe (o.dry b) s := by
  cases huboot : o.uboot with
  | false =>
    have hgiven : o.overlay.isSome = true := by simp [given]
    rw [prepare_refused (o := o.dry a) s huboot hgiven,
      prepare_refused (o := o.dry b) s huboot hgiven]
  | true =>
    rw [prepare_apply (o := o.dry a) s (.inl huboot), prepare_apply (o := o.dry b) s (.inl huboot)]
    have hmachine : machineOf s.host (o.dry a) = machineOf s.host (o.dry b) := rfl
    rw [hmachine]
    cases machineOf s.host (o.dry b) with
    | error fault => rfl
    | ok machine =>
      have hlog := onlyLogged_chooseBootImage (o := o.dry b) (d := ⟨o.dir, machine⟩) s given there
        huboot
      simp only [Options.dry_dir, chooseBootImage_dry_irrelevant s given there huboot a b]
      cases hboot : chooseBootImage (o.dry b) ⟨o.dir, machine⟩ s with
      | error e t => rfl
      | ok bootImage t =>
        rw [hboot] at hlog
        have hthere : t.host.isPresent overlay = true := by
          rw [show t.host = s.host from hlog.host]
          exact there
        simp only [chooseImage_dry_irrelevant t given hthere a b]
        rfl

/-- The dry choice of an overlay's own copy fails for nothing while the overlay is not there. -/
theorem ownArtifact_dry (s : Progress) (artifact : Artifact) (source sidecar : Path)
    (fresh : s.host.isPresent overlay = false) :
    ∃ t, ownArtifact artifact source sidecar overlay true s = .ok sidecar t ∧ t.host = s.host := by
  generalize hrun : ownArtifact artifact source sidecar overlay true s = r
  cases ownArtifact_outcome hrun with
  | reused hthere => simp [fresh] at hthere
  | lost hthere => simp [fresh] at hthere
  | sourceMissing _ hreal => simp at hreal
  | kept => exact ⟨_, rfl, rfl⟩
  | announced => exact ⟨_, rfl, rfl⟩
  | copied _ hreal => simp at hreal
  | copyFailed _ hreal => simp at hreal

/-- Without an overlay a dry run lets every path pass. -/
theorem plainStage_dry {t t' : Progress} (s : Progress) {artifact : Artifact}
    {lookup : Except Fault Path} {path : Path}
    (h : plainStage artifact lookup false t = .ok path t') :
    plainStage artifact lookup true s = .ok path s := by
  cases lookup with
  | error fault => cases h
  | ok found =>
    simp only [plainStage] at h
    split at h
    · cases h
    · cases h
      simp [plainStage, isAmiss]

theorem ownStage_dry (s : Progress) (artifact : Artifact) {lookup : Except Fault Path}
    (sidecar : Path) (named : ∃ source, lookup = .ok source)
    (fresh : s.host.isPresent overlay = false) :
    ∃ t, ownStage artifact lookup sidecar overlay true s = .ok sidecar t ∧ t.host = s.host := by
  obtain ⟨source, rfl⟩ := named
  exact ownArtifact_dry s artifact source sidecar fresh

theorem chooseKernel_dry {s t : Progress} {kernel : Path}
    (h : chooseKernel (o.dry false) d s = .ok kernel t) :
    chooseKernel (o.dry true) d s = .ok kernel s := by
  rw [chooseKernel_apply] at h ⊢
  exact plainStage_dry s h

theorem chooseBootloader_dry {s t : Progress} {rom : Path}
    (fresh : ∀ overlay, o.overlay = some overlay → s.host.isPresent overlay = false)
    (h : chooseBootloader (o.dry false) d s = .ok rom t) :
    ∃ u, chooseBootloader (o.dry true) d s = .ok rom u ∧ u.host = s.host := by
  cases hgiven : o.overlay with
  | none =>
    rw [chooseBootloader_plain (o := o.dry false) s hgiven] at h
    rw [chooseBootloader_plain (o := o.dry true) s hgiven]
    exact ⟨s, plainStage_dry s h, rfl⟩
  | some overlay =>
    rw [chooseBootloader_overlay (o := o.dry false) s hgiven] at h
    rw [chooseBootloader_overlay (o := o.dry true) s hgiven]
    obtain ⟨rfl, hsource⟩ := ownStage_ok h
    exact ownStage_dry s .ubootImage (romSidecar overlay) hsource (fresh overlay hgiven)

theorem chooseBootImage_dry {s t : Progress} {bootImage : BootImage}
    (fresh : ∀ overlay, o.overlay = some overlay → s.host.isPresent overlay = false)
    (h : chooseBootImage (o.dry false) d s = .ok bootImage t) :
    ∃ u, chooseBootImage (o.dry true) d s = .ok bootImage u ∧ u.host = s.host := by
  cases hefi : o.efi with
  | true =>
    rw [chooseBootImage_efi (o := o.dry false) s hefi] at h
    cases h
    exact ⟨s, chooseBootImage_efi (o := o.dry true) s hefi, rfl⟩
  | false =>
    cases huboot : o.uboot with
    | false =>
      rw [chooseBootImage_kernel (o := o.dry false) s hefi huboot] at h
      rw [chooseBootImage_kernel (o := o.dry true) s hefi huboot]
      obtain ⟨kernel, hkernel, rfl⟩ := Ending.map_ok h
      exact ⟨s, by rw [chooseKernel_dry hkernel, Ending.map], rfl⟩
    | true =>
      rw [chooseBootImage_uboot (o := o.dry false) s hefi huboot] at h
      rw [chooseBootImage_uboot (o := o.dry true) s hefi huboot]
      obtain ⟨rom, hrom, rfl⟩ := Ending.map_ok h
      obtain ⟨u, hdry, hhost⟩ := chooseBootloader_dry fresh hrom
      exact ⟨u, by rw [hdry, Ending.map], hhost⟩

/-- The image that is named has a canonical path on the files of the dry run, if it has one on what
the real run made of them. -/
theorem imageSource_of_grows {h later : Host} (grows : h.files.Grows later.files)
    (cwd : later.cwd = h.cwd) (named : ∃ p, imageSource later o d = .ok p) :
    ∃ p, imageSource h o d = .ok p := by
  rw [imageSource_ok_iff] at named ⊢
  intro hpresent
  have hlater : later.isPresent (.ofString o.imageName) = true := by
    unfold Host.isPresent
    rw [cwd]
    exact grows.isPresent hpresent
  rw [← grows.canonical_eq hpresent, ← cwd]
  exact named hlater

theorem chooseImage_dry {s t t' : Progress} {image : Path}
    (fresh : ∀ overlay, o.overlay = some overlay → s.host.isPresent overlay = false)
    (plain : o.overlay = none → t.host = s.host) (grows : s.host.files.Grows t.host.files)
    (cwd : t.host.cwd = s.host.cwd) (h : chooseImage (o.dry false) d t = .ok image t') :
    ∃ u, chooseImage (o.dry true) d s = .ok image u ∧ u.host = s.host := by
  cases hgiven : o.overlay with
  | none =>
    rw [chooseImage_plain (o := o.dry false) t hgiven, plain hgiven] at h
    rw [chooseImage_plain (o := o.dry true) s hgiven]
    exact ⟨s, plainStage_dry s h, rfl⟩
  | some overlay =>
    rw [chooseImage_overlay (o := o.dry false) t hgiven] at h
    rw [chooseImage_overlay (o := o.dry true) s hgiven]
    obtain ⟨rfl, hsource⟩ := ownStage_ok h
    have hnamed : ∃ p, imageSource s.host (o.dry true) d = .ok p :=
      imageSource_of_grows (o := o.dry true) grows cwd hsource
    exact ownStage_dry s .osImage (imageSidecar overlay) hnamed (fresh overlay hgiven)

/-- A last stage succeeds on every host with the same ports and dice. -/
theorem complete_dry {s t w : Progress} {machine : String} {bootImage : BootImage} {image : Path}
    {launch : Launch} (held : w.host.held = s.host.held) (dice : w.host.dice = s.host.dice)
    (h : complete probe (o.dry false) machine bootImage image s = .ok launch t) :
    ∃ u, complete probe (o.dry true) machine bootImage image w
        = .ok { launch with kvm := o.kvmOn probe u.host } u ∧
      u.host = { w.host with dice := (o.addresses w.host.dice).2 } := by
  obtain ⟨serialPort, sshPort, hports, hlaunch, -⟩ := complete_ok h
  cases hrun : complete probe (o.dry true) machine bootImage image w with
  | error e u =>
    rw [complete_apply, held, hports] at hrun
    cases hrun
  | ok predicted u =>
    obtain ⟨serialPort', sshPort', hports', hpredicted, hhost⟩ := complete_ok hrun
    rw [held, hports] at hports'
    cases hports'
    refine ⟨u, ?_, hhost⟩
    rw [hpredicted, hlaunch, dice]
    rfl

/-- While the overlay is not there, a dry run succeeds whenever the real run does, and changes no
file. It can differ in one point: it asks the probe on the files as they were. -/
theorem prepare_dry {s t : Progress} {launch : Launch}
    (fresh : ∀ overlay, o.overlay = some overlay → s.host.isPresent overlay = false)
    (h : prepare probe (o.dry false) s = .ok launch t) :
    ∃ u, prepare probe (o.dry true) s = .ok { launch with kvm := o.kvmOn probe u.host } u ∧
      u.host.files = s.host.files := by
  obtain ⟨hfits, machine, bootImage, image, v, w, hknown, hboot, hdisk, hlast⟩ := prepare_ok h
  obtain ⟨mid, hrom, hv⟩ := chooseBootImage_files hknown hboot
  obtain ⟨after, -, hw⟩ := chooseImage_files hfits hknown hv hdisk
  rw [Ending.progress_ok] at hv hw
  have hplain : o.overlay = none → v.host = s.host := by
    intro hnone
    rw [hv, hrom.eq_of_plain hnone]
  obtain ⟨v', hboot', hv'⟩ := chooseBootImage_dry fresh hboot
  obtain ⟨w', hdisk', hw'⟩ := chooseImage_dry (s := v') (t := v) (by rw [hv']; exact fresh)
    (by rw [hv']; exact hplain) (by rw [hv', hv]; exact hrom.grows) (by rw [hv', hv]) hdisk
  rw [hv'] at hw'
  obtain ⟨u, hlast', hu⟩ := complete_dry (w := w') (by rw [hw', hw]) (by rw [hw', hw]) hlast
  refine ⟨u, ?_, by rw [hu, hw']⟩
  have hknown' : machineOf s.host (o.dry true) = .ok machine := hknown
  rw [prepare_apply (o := o.dry true) s hfits, hknown']
  rw [Options.dry_dir] at hboot' hdisk'
  simp only [Options.dry_dir, hboot', hdisk', hlast']

theorem prepare_predicted {s t : Progress} {launch : Launch}
    (h : prepare probe (o.dry false) s = .ok launch t) :
    ∃ u, prepare probe (o.dry true) s = .ok { launch with kvm := o.kvmOn probe u.host } u ∧
      u.host.files = s.host.files := by
  by_cases hfresh : ∀ overlay, o.overlay = some overlay → s.host.isPresent overlay = false
  · exact prepare_dry hfresh h
  · obtain ⟨overlay, hgiven, hpresent⟩ :
        ∃ overlay, o.overlay = some overlay ∧ s.host.isPresent overlay = true := by
      simpa using hfresh
    have hkvm : o.kvmOn probe t.host = launch.kvm := (prepare_kvm (o := o.dry false) h).symm
    obtain ⟨hfiles, -⟩ := prepare_there s probe (o := o.dry false) hgiven hpresent
    rw [h, Ending.progress_ok] at hfiles
    rw [prepare_dry_irrelevant s hgiven hpresent true false, h]
    exact ⟨t, by rw [hkvm], hfiles⟩

/-- What a real run comes to is what the dry run came to on the same host, except that the dry run
asks the probe on the files as they were. With an overlay that is there the two runs are one. -/
theorem dryRun_predicts (probe : Probe) (o : Options) (h : Host) :
    let real := h.run (prepare probe (o.dry false))
    let dry := h.run (prepare probe (o.dry true))
    (∀ launch, real.result = .ok launch →
      dry.result = .ok { launch with kvm := o.kvmOn probe dry.host } ∧
      (dry.result = .ok launch ↔ o.kvmOn probe dry.host = o.kvmOn probe real.host) ∧
      dry.host.files = h.files) ∧
    (∀ overlay, o.overlay = some overlay → h.isPresent overlay = true →
      dry = real ∧ real.journal.printed = [] ∧ real.host.files = h.files) := by
  intro real dry
  have hreal : real = Ending.outcome (prepare probe (o.dry false) h.begin) := Host.run_eq _ _
  have hdry : dry = Ending.outcome (prepare probe (o.dry true) h.begin) := Host.run_eq _ _
  constructor
  · intro launch hlaunch
    obtain ⟨t, hrun⟩ : ∃ t, prepare probe (o.dry false) h.begin = .ok launch t := by
      rw [hreal] at hlaunch
      exact Ending.exists_of_result hlaunch
    obtain ⟨u, hdryRun, hfiles⟩ := prepare_predicted hrun
    have hkvm : o.kvmOn probe real.host = launch.kvm := by
      rw [hreal, hrun]
      exact (prepare_kvm (o := o.dry false) hrun).symm
    have hpredicted : dry.result = .ok { launch with kvm := o.kvmOn probe dry.host } := by
      rw [hdry, hdryRun]
      rfl
    refine ⟨hpredicted, ?_, ?_⟩
    · rw [hpredicted, hkvm]
      constructor
      · intro hsame
        injection hsame with hsame
        exact congrArg Launch.kvm hsame
      · intro hsame
        rw [hsame]
    · rw [hdry, hdryRun]
      exact hfiles
  · intro overlay given there
    obtain ⟨hfiles, hprinted⟩ := prepare_there h.begin probe (o := o.dry false) given there
    rw [hreal, hdry, Ending.outcome_host, Ending.outcome_journal]
    exact ⟨congrArg Ending.outcome (prepare_dry_irrelevant h.begin given there true false),
      hprinted, hfiles⟩

theorem dryRun_predicts_sample :
    let launch := Sample.options.launch "m" (.bios (.ofString "/v.u-boot.rom"))
      (.ofString "/v.img") (⟨0x52, 0x54, 0, 0, 0, 1⟩, none) 8990 2222 false
    (Sample.complete.run (prepare (.known false) (Sample.options.dry false))).result = .ok launch ∧
      (Sample.complete.run (prepare (.known false) (Sample.options.dry true))).result
        = .ok launch := by
  intro launch
  have hreal : (Sample.complete.run (prepare (.known false) (Sample.options.dry false))).result
      = .ok launch := by
    decide +kernel
  have hpredicts := (dryRun_predicts (.known false) Sample.options Sample.complete).1 launch hreal
  have hgiven : Sample.options.kvm = .given false := rfl
  refine ⟨hreal, hpredicts.2.1.2 ?_⟩
  rw [Options.kvmOn_of_given hgiven, Options.kvmOn_of_given hgiven]

/-- A real run can make the very program that it then asks, and so differ from its dry run. -/
theorem dryRun_mistakes_probe :
    ¬∀ (probe : Probe) (o : Options) (h : Host) (launch : Launch),
      (h.run (prepare probe (o.dry false))).result = .ok launch →
      (h.run (prepare probe (o.dry true))).result = .ok launch := by
  intro hclaim
  have hreal : (Sample.selfServing.run (prepare .program (Sample.asking.dry false))).result
      = .ok (Sample.asking.launch "m" (.bios (.ofString "/v.u-boot.rom")) (.ofString "/v.img")
        (⟨0x52, 0x54, 0, 0, 0, 1⟩, none) 8990 2222 true) := by
    decide +kernel
  have hdry := hclaim .program Sample.asking Sample.selfServing _ hreal
  revert hdry
  decide +kernel

end Preparation

end LaunchPlan
