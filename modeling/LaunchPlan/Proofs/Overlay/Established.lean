import LaunchPlan.Proofs.FileSystem.Named
import LaunchPlan.Proofs.Path.Absolute
import LaunchPlan.Proofs.Preparation.Outcome

/-!
Preparations with an overlay that is there already. Its own copies are taken as they are, and what
they once were copied from does not matter, except that its path is still looked up. Main
statements: `prepare_established`, such a preparation as its last stage alone, and
`established_overlay_independent`, when two of them come to the same.
-/

namespace LaunchPlan

namespace Progress

/-- Two states between which nothing but events came about. -/
structure OnlyLogged (s t : Progress) : Prop where
  host : t.host = s.host
  printed : t.journal.printed = s.journal.printed

theorem OnlyLogged.refl (s : Progress) : s.OnlyLogged s := ⟨rfl, rfl⟩

theorem OnlyLogged.trans {s t u : Progress} (first : s.OnlyLogged t) (second : t.OnlyLogged u) :
    s.OnlyLogged u :=
  ⟨second.host.trans first.host, second.printed.trans first.printed⟩

theorem onlyLogged_logged (s : Progress) (events : List Event) : s.OnlyLogged (s.logged events) :=
  ⟨rfl, rfl⟩

end Progress

/-- A preparation came to a launch, or it found no free port. -/
def Outcome.IsDecided (outcome : Outcome Launch) : Prop :=
  (∃ launch, outcome.result = .ok launch) ∨
    ∃ start stop, outcome.result = .error (.portExhausted start stop)

namespace Preparation

variable {probe : Probe} {o : Options} {d : Deployment} {overlay : Path} (s : Progress)

def reuse (artifact : Artifact) (sidecar overlay : Path) (s : Progress) : Ending Path :=
  let t := s.logged [.sidecarReused artifact overlay sidecar]
  if s.host.isPresent sidecar then .ok sidecar t
  else .error (.missingArtifact artifact sidecar) t

theorem onlyLogged_reuse (artifact : Artifact) (sidecar overlay : Path) :
    s.OnlyLogged (reuse artifact sidecar overlay s).progress := by
  unfold reuse
  cases s.host.isPresent sidecar with
  | true => exact s.onlyLogged_logged _
  | false => exact s.onlyLogged_logged _

theorem ownArtifact_there {artifact : Artifact} {source sidecar : Path} {dryRun : Bool}
    (there : s.host.isPresent overlay = true) :
    ownArtifact artifact source sidecar overlay dryRun s = reuse artifact sidecar overlay s := by
  rw [ownArtifact_apply, ownCopy_there s there, reuse]
  cases hown : s.host.isPresent sidecar with
  | true => simp [isAmiss, hown]
  | false => simp [isAmiss, hown, there]

/-- A stage with an overlay that is there only needs the lookup to succeed. -/
theorem ownStage_there {artifact : Artifact} {lookup : Except Fault Path} {sidecar : Path}
    {dryRun : Bool} (there : s.host.isPresent overlay = true) :
    ownStage artifact lookup sidecar overlay dryRun s = match lookup with
      | .ok _ => reuse artifact sidecar overlay s
      | .error fault => .error (.io fault) s := by
  cases lookup with
  | ok source => exact ownArtifact_there s there
  | error fault => rfl

theorem chooseBootloader_there (given : o.overlay = some overlay)
    (there : s.host.isPresent overlay = true) :
    chooseBootloader o d s = match romSource s.host o d with
      | .ok _ => reuse .ubootImage (romSidecar overlay) overlay s
      | .error fault => .error (.io fault) s := by
  rw [chooseBootloader_overlay s given, ownStage_there s there]

theorem chooseImage_there (given : o.overlay = some overlay)
    (there : s.host.isPresent overlay = true) :
    chooseImage o d s = match imageSource s.host o d with
      | .ok _ => reuse .osImage (imageSidecar overlay) overlay s
      | .error fault => .error (.io fault) s := by
  rw [chooseImage_overlay s given, ownStage_there s there]

theorem onlyLogged_chooseBootImage (given : o.overlay = some overlay)
    (there : s.host.isPresent overlay = true) (uboot : o.uboot = true) :
    s.OnlyLogged (Ending.progress (chooseBootImage o d s)) := by
  cases hefi : o.efi with
  | true =>
    rw [chooseBootImage_efi s hefi]
    exact .refl s
  | false =>
    rw [chooseBootImage_uboot s hefi uboot, Ending.progress_map, chooseBootloader_there s given there]
    cases romSource s.host o d with
    | ok source => exact onlyLogged_reuse s _ _ _
    | error fault => exact .refl s

theorem onlyLogged_chooseImage (given : o.overlay = some overlay)
    (there : s.host.isPresent overlay = true) :
    s.OnlyLogged (Ending.progress (chooseImage o d s)) := by
  rw [chooseImage_there s given there]
  cases imageSource s.host o d with
  | ok source => exact onlyLogged_reuse s _ _ _
  | error fault => exact .refl s

theorem onlyLogged_stages {bootImage : BootImage} {t : Progress} {r : Ending Path}
    (given : o.overlay = some overlay) (there : s.host.isPresent overlay = true)
    (uboot : o.uboot = true) (boot : chooseBootImage o d s = .ok bootImage t)
    (disk : chooseImage o d t = r) : s.OnlyLogged r.progress := by
  have hboot := onlyLogged_chooseBootImage (d := d) s given there uboot
  rw [boot] at hboot
  have hthere : t.host.isPresent overlay = true := by
    rw [show t.host = s.host from hboot.host]
    exact there
  have hdisk := onlyLogged_chooseImage (d := d) t given hthere
  rw [disk] at hdisk
  exact hboot.trans hdisk

theorem complete_printed (machine : String) (bootImage : BootImage) (image : Path) :
    (Ending.progress (complete probe o machine bootImage image s)).journal.printed
      = s.journal.printed := by
  rw [complete_apply]
  cases Port.pair s.host.held with
  | error e => rfl
  | ok ports => simp [Progress.drawn]

/-- An overlay that is there keeps a preparation from touching files and from printing. -/
theorem prepare_there (probe : Probe) (given : o.overlay = some overlay)
    (there : s.host.isPresent overlay = true) :
    (Ending.progress (prepare probe o s)).host.files = s.host.files ∧
      (Ending.progress (prepare probe o s)).journal.printed = s.journal.printed := by
  have huboot (fits : o.uboot = true ∨ o.overlay = none) : o.uboot = true := by
    simpa [given] using fits
  generalize hrun : prepare probe o s = r
  cases prepare_outcome hrun with
  | refused => exact ⟨rfl, rfl⟩
  | unknownMachine => exact ⟨rfl, rfl⟩
  | @bootFailed machine _ _ hfits _ hboot =>
    have hlog := onlyLogged_chooseBootImage (d := ⟨o.dir, machine⟩) s given there (huboot hfits)
    rw [hboot] at hlog
    exact ⟨congrArg Host.files hlog.host, hlog.printed⟩
  | imageFailed hfits _ hboot hdisk =>
    have hlog := onlyLogged_stages s given there (huboot hfits) hboot hdisk
    exact ⟨congrArg Host.files hlog.host, hlog.printed⟩
  | @completed _ _ _ _ u hfits _ hboot hdisk =>
    have hlog := onlyLogged_stages s given there (huboot hfits) hboot hdisk
    have hfiles : u.host.files = s.host.files := congrArg Host.files hlog.host
    rw [complete_host, complete_printed]
    exact ⟨hfiles, hlog.printed⟩

/-- An overlay is established on a host: it is there with its own copies. -/
structure Established (h : Host) (o : Options) (overlay : Path) : Prop where
  there : h.isPresent overlay = true
  rom : o.efi = false → h.isPresent (romSidecar overlay) = true
  image : h.isPresent (imageSidecar overlay) = true

/-- The paths that the overlay's own copies were made from, or would be, still have their absolute
forms: the deployment's U-Boot image, unless another is named, and the image that is named. -/
structure SourcesNamed (h : Host) (o : Options) (machine : String) : Prop where
  rom : o.efi = false → o.bootloader = none →
    (Deployment.bootloader ⟨o.dir, machine⟩).isAbsolute = true ∨ h.cwd.isNamed = true
  image : h.isPresent (.ofString o.imageName) = true →
    ∃ p, h.files.canonical h.cwd (.ofString o.imageName) = .ok p

theorem romSource_ok_iff {h : Host} :
    (∃ p, romSource h o d = .ok p) ↔
      (o.bootloader = none → d.bootloader.isAbsolute = true ∨ h.cwd.isNamed = true) := by
  unfold romSource
  cases o.bootloader with
  | some path => simp
  | none =>
    obtain ⟨folder, name, hends⟩ := d.bootloader_endsIn
    simpa using FileSystem.absolute_ok_iff hends.bytes_ne_nil

theorem imageSource_ok_iff {h : Host} :
    (∃ p, imageSource h o d = .ok p) ↔ (h.isPresent (.ofString o.imageName) = true →
      ∃ p, h.files.canonical h.cwd (.ofString o.imageName) = .ok p) := by
  simp only [imageSource]
  cases h.isPresent (.ofString o.imageName) with
  | true => simp
  | false => simp

/-- What a machine with an established overlay is booted with. -/
def establishedBoot (o : Options) (overlay : Path) : BootImage :=
  .bios (if o.efi then efiFirmware else romSidecar overlay)

def establishedEvents (o : Options) (overlay : Path) : List Event :=
  if o.efi then [] else [.sidecarReused .ubootImage overlay (romSidecar overlay)]

theorem reuse_of_isPresent {artifact : Artifact} {sidecar : Path}
    (own : s.host.isPresent sidecar = true) :
    reuse artifact sidecar overlay s
      = .ok sidecar (s.logged [.sidecarReused artifact overlay sidecar]) := by
  simp [reuse, own]

theorem chooseBootImage_established (given : o.overlay = some overlay) (uboot : o.uboot = true)
    (established : Established s.host o overlay)
    (named : o.efi = false → ∃ p, romSource s.host o d = .ok p) :
    chooseBootImage o d s
      = .ok (establishedBoot o overlay) (s.logged (establishedEvents o overlay)) := by
  unfold establishedBoot establishedEvents
  cases hefi : o.efi with
  | true =>
    rw [chooseBootImage_efi s hefi]
    simp
  | false =>
    obtain ⟨rom, hrom⟩ := named hefi
    rw [chooseBootImage_uboot s hefi uboot, chooseBootloader_there s given established.there, hrom]
    simp only [reuse_of_isPresent s (established.rom hefi), Ending.map, Bool.false_eq_true, if_false]

theorem chooseImage_established (given : o.overlay = some overlay)
    (established : Established s.host o overlay) (named : ∃ p, imageSource s.host o d = .ok p) :
    chooseImage o d s = .ok (imageSidecar overlay)
      (s.logged [.sidecarReused .osImage overlay (imageSidecar overlay)]) := by
  obtain ⟨source, hsource⟩ := named
  rw [chooseImage_there s given established.there, hsource]
  exact reuse_of_isPresent s established.image

variable {s} {machine : String} (probe)

/-- With an established overlay only the last stage decides anything. -/
theorem prepare_established (known : machineOf s.host o = .ok machine)
    (given : o.overlay = some overlay) (uboot : o.uboot = true)
    (established : Established s.host o overlay) (named : SourcesNamed s.host o machine) :
    prepare probe o s = complete probe o machine (establishedBoot o overlay)
      (imageSidecar overlay) (s.logged (establishedEvents o overlay
        ++ [.sidecarReused .osImage overlay (imageSidecar overlay)])) := by
  have hboot := chooseBootImage_established (d := ⟨o.dir, machine⟩) s given uboot established
    fun efi => romSource_ok_iff.2 (named.rom efi)
  have hdisk := chooseImage_established (d := ⟨o.dir, machine⟩)
    (s.logged (establishedEvents o overlay)) given established (imageSource_ok_iff.2 named.image)
  rw [prepare_apply s (.inl uboot), known]
  simp only [hboot, hdisk, Progress.logged_logged]

/-- A path that has no absolute form any more ends a preparation, although nothing needs it. -/
theorem prepare_unnamed (known : machineOf s.host o = .ok machine)
    (given : o.overlay = some overlay) (uboot : o.uboot = true)
    (established : Established s.host o overlay) (unnamed : ¬SourcesNamed s.host o machine) :
    ∃ fault t, prepare probe o s = .error (.io fault) t := by
  rw [prepare_apply s (.inl uboot), known]
  by_cases hrom : o.efi = false → ∃ p, romSource s.host o ⟨o.dir, machine⟩ = .ok p
  · have hboot := chooseBootImage_established (d := ⟨o.dir, machine⟩) s given uboot established hrom
    have himage : ¬∃ p, imageSource s.host o ⟨o.dir, machine⟩ = .ok p := by
      intro himage
      exact unnamed ⟨fun efi => romSource_ok_iff.1 (hrom efi), imageSource_ok_iff.1 himage⟩
    cases hsource : imageSource s.host o ⟨o.dir, machine⟩ with
    | ok p => exact absurd ⟨p, hsource⟩ himage
    | error fault =>
      have hdisk := chooseImage_there (d := ⟨o.dir, machine⟩)
        (s.logged (establishedEvents o overlay)) given established.there
      rw [Progress.logged_host, hsource] at hdisk
      refine ⟨fault, s.logged (establishedEvents o overlay), ?_⟩
      simp only [hboot, hdisk]
  · obtain ⟨hefi, hnone⟩ := Classical.not_imp.1 hrom
    cases hsource : romSource s.host o ⟨o.dir, machine⟩ with
    | ok p => exact absurd ⟨p, hsource⟩ hnone
    | error fault =>
      have hboot := chooseBootloader_there (d := ⟨o.dir, machine⟩) s given established.there
      rw [hsource] at hboot
      exact ⟨fault, s, by simp only [chooseBootImage_uboot s hefi uboot, hboot, Ending.map]⟩

/-- The last stage comes to the same on two hosts on which it finds the same. -/
theorem complete_congr {s t : Progress} {bootImage : BootImage} {image : Path}
    (held : s.host.held = t.host.held) (dice : s.host.dice = t.host.dice)
    (journal : s.journal = t.journal)
    (alike : o.kvm = .detect → ∀ dice, probe { s.host with dice } = probe { t.host with dice }) :
    (Ending.outcome (complete probe o machine bootImage image s)).result
        = (Ending.outcome (complete probe o machine bootImage image t)).result ∧
      (Ending.outcome (complete probe o machine bootImage image s)).journal
        = (Ending.outcome (complete probe o machine bootImage image t)).journal := by
  have hkvm : o.kvmOn probe { s.host with dice := (o.addresses t.host.dice).2 }
      = o.kvmOn probe { t.host with dice := (o.addresses t.host.dice).2 } := by
    unfold Options.kvmOn
    cases hset : o.kvm with
    | given kvm => rfl
    | detect => simp only [alike hset]
  rw [complete_apply, complete_apply, held]
  cases Port.pair t.host.held with
  | error e => simp [Ending.outcome, Progress.drawn, Progress.logged, journal]
  | ok ports =>
    simp only [Progress.logged_host, Progress.drawn_host, dice, hkvm]
    refine ⟨rfl, ?_⟩
    cases hset : o.kvm with
    | given kvm => simp [Progress.asked, hset, Progress.drawn, Progress.logged, journal]
    | detect =>
      simp [Progress.asked, hset, Progress.drawn, Progress.logged, journal, dice, alike hset]

theorem complete_isDecided {bootImage : BootImage} {image : Path} :
    (Ending.outcome (complete probe o machine bootImage image s)).IsDecided := by
  rw [complete_apply]
  cases hports : Port.pair s.host.held with
  | error e =>
    obtain ⟨start, stop, rfl⟩ := Port.pair_error hports
    exact .inr ⟨start, stop, rfl⟩
  | ok ports => exact .inl ⟨_, rfl⟩

theorem isDecided_iff_named (known : machineOf s.host o = .ok machine)
    (given : o.overlay = some overlay) (uboot : o.uboot = true)
    (established : Established s.host o overlay) :
    (Ending.outcome (prepare probe o s)).IsDecided ↔ SourcesNamed s.host o machine := by
  by_cases hnamed : SourcesNamed s.host o machine
  · rw [prepare_established probe known given uboot established hnamed]
    exact iff_of_true (complete_isDecided probe) hnamed
  · obtain ⟨fault, t, hrun⟩ := prepare_unnamed probe known given uboot established hnamed
    rw [hrun]
    refine iff_of_false ?_ hnamed
    rintro (⟨launch, hok⟩ | ⟨start, stop, herror⟩)
    · cases hok
    · cases herror

/-- Two preparations with one established overlay, of whatever deployment and from whatever files,
come to the same exactly if in both of them the paths of the artifacts still have absolute forms. -/
theorem established_overlay_independent (o : Options) (h₁ h₂ : Host) {machine : String}
    {overlay : Path} (dir : Path) (bootloader : Option Path) (imageName : String) (dryRun : Bool)
    (known : o.machine = .given machine) (given : o.overlay = some overlay)
    (uboot : o.uboot = true) (held : h₁.held = h₂.held) (dice : h₁.dice = h₂.dice)
    (alike : o.kvm = .detect → ∀ dice, probe { h₁ with dice } = probe { h₂ with dice })
    (established₁ : Established h₁ o overlay) (established₂ : Established h₂ o overlay) :
    let o₂ : Options := { o with dir, bootloader, imageName, dryRun }
    let run₁ := h₁.run (prepare probe o)
    let run₂ := h₂.run (prepare probe o₂)
    (run₁.host.files = h₁.files ∧ run₁.journal.printed = []) ∧
    (run₂.host.files = h₂.files ∧ run₂.journal.printed = []) ∧
    (run₁.result = run₂.result ∧ run₁.journal = run₂.journal ∧ run₁.IsDecided ↔
      SourcesNamed h₁ o machine ∧ SourcesNamed h₂ o₂ machine) := by
  intro o₂ run₁ run₂
  have hrun₁ : run₁ = Ending.outcome (prepare probe o h₁.begin) := Host.run_eq _ _
  have hrun₂ : run₂ = Ending.outcome (prepare probe o₂ h₂.begin) := Host.run_eq _ _
  have hknown₁ : machineOf h₁.begin.host o = .ok machine := by simp [machineOf, known]
  have hknown₂ : machineOf h₂.begin.host o₂ = .ok machine := by simp [machineOf, o₂, known]
  have hestablished₂ : Established h₂.begin.host o₂ overlay :=
    ⟨established₂.there, established₂.rom, established₂.image⟩
  have hdecided₁ : run₁.IsDecided ↔ SourcesNamed h₁ o machine := by
    rw [hrun₁]
    exact isDecided_iff_named probe hknown₁ given uboot established₁
  have hdecided₂ : run₂.IsDecided ↔ SourcesNamed h₂ o₂ machine := by
    rw [hrun₂]
    exact isDecided_iff_named probe hknown₂ given uboot hestablished₂
  refine ⟨?_, ?_, ?_, ?_⟩
  · rw [hrun₁, Ending.outcome_host, Ending.outcome_journal]
    exact prepare_there h₁.begin probe given established₁.there
  · rw [hrun₂, Ending.outcome_host, Ending.outcome_journal]
    exact prepare_there h₂.begin probe (o := o₂) given established₂.there
  · rintro ⟨hresult, -, hdecided⟩
    refine ⟨hdecided₁.1 hdecided, hdecided₂.1 ?_⟩
    unfold Outcome.IsDecided at hdecided ⊢
    rw [← hresult]
    exact hdecided
  · rintro ⟨hnamed₁, hnamed₂⟩
    -- The last stage does not read the options in which the two differ.
    have hlast (t : Progress) :
        complete probe o₂ machine (establishedBoot o₂ overlay) (imageSidecar overlay) t
          = complete probe o machine (establishedBoot o overlay) (imageSidecar overlay) t := rfl
    rw [hrun₁, hrun₂, prepare_established probe hknown₁ given uboot established₁ hnamed₁,
      prepare_established probe hknown₂ given uboot hestablished₂ hnamed₂, hlast]
    obtain ⟨hresult, hjournal⟩ := complete_congr probe (o := o)
      (s := h₁.begin.logged (establishedEvents o overlay
        ++ [.sidecarReused .osImage overlay (imageSidecar overlay)]))
      (t := h₂.begin.logged (establishedEvents o overlay
        ++ [.sidecarReused .osImage overlay (imageSidecar overlay)])) held dice rfl alike
    exact ⟨hresult, hjournal, complete_isDecided probe⟩

/-- A run with the deployment, and a dry one without it and with its paths elsewhere. -/
theorem established_overlay_sample :
    let h₁ := Sample.equipped
    let h₂ := Sample.detached
    let o₂ : Options :=
      { Sample.options with
        dir := .ofString "gone", bootloader := some (.ofString "b"), imageName := "/v"
        dryRun := true }
    (h₁.run (prepare (.known false) Sample.options)).result
      = (h₂.run (prepare (.known false) o₂)).result := by
  intro h₁ h₂ o₂
  have hnamed₁ : SourcesNamed h₁ Sample.options "m" :=
    ⟨fun _ _ => .inr (by decide +kernel), fun hpresent => absurd hpresent (by decide +kernel)⟩
  have hnamed₂ : SourcesNamed h₂ o₂ "m" :=
    ⟨fun _ hnone => absurd hnone (by decide +kernel),
      fun _ => ⟨.ofString "/v", by decide +kernel⟩⟩
  have hestablished₁ : Established h₁ Sample.options (.ofString "/v") :=
    ⟨by decide +kernel, fun _ => by decide +kernel, by decide +kernel⟩
  have hestablished₂ : Established h₂ Sample.options (.ofString "/v") :=
    ⟨by decide +kernel, fun _ => by decide +kernel, by decide +kernel⟩
  have hgiven : Sample.options.kvm ≠ .detect := by decide
  have hsame := established_overlay_independent (.known false) Sample.options h₁ h₂
    (.ofString "gone") (some (.ofString "b")) "/v" true rfl rfl rfl rfl rfl
    (fun hdetect => absurd hdetect hgiven) hestablished₁ hestablished₂
  exact (hsame.2.2.2 ⟨hnamed₁, hnamed₂⟩).1

/-- Where the working directory was removed, an established overlay is of no use to options with a
relative directory. -/
theorem established_overlay_needs_directory :
    ¬∀ (probe : Probe) (o : Options) (h₁ h₂ : Host) (machine : String) (overlay dir : Path)
      (bootloader : Option Path) (imageName : String) (dryRun : Bool),
      o.machine = .given machine → o.overlay = some overlay → o.uboot = true →
      h₁.held = h₂.held → h₁.dice = h₂.dice →
      (o.kvm = .detect → ∀ dice, probe { h₁ with dice } = probe { h₂ with dice }) →
      Established h₁ o overlay → Established h₂ o overlay →
      (h₁.run (prepare probe o)).result
        = (h₂.run (prepare probe { o with dir, bootloader, imageName, dryRun })).result := by
  intro hclaim
  have hestablished : Established Sample.homeless Sample.options (.ofString "/v") :=
    ⟨by decide +kernel, fun _ => by decide +kernel, by decide +kernel⟩
  have hsame := hclaim (.known false) Sample.options Sample.homeless Sample.homeless "m"
    (.ofString "/v") (.ofString "d") none "i" false rfl rfl rfl rfl rfl (fun _ _ => rfl)
    hestablished hestablished
  revert hsame
  decide +kernel

end Preparation

end LaunchPlan
