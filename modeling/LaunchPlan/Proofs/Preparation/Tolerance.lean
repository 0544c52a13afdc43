import LaunchPlan.Proofs.FileSystem.Absolute
import LaunchPlan.Proofs.Overlay.Copies
import LaunchPlan.Proofs.Overlay.DryRun
import LaunchPlan.Proofs.Preparation.Verdict

/-!
What a dry run puts up with. It looks up the paths of its artifacts, but not the artifacts: none of
them has to be there, and none of their states is a failure. Main statement: `dryRun_tolerates`, a
dry run without an overlay changes nothing, and fails for want of a machine, of a port, or of a
canonical path.
-/

namespace LaunchPlan

namespace Preparation

variable {o : Options} {d : Deployment} {h : Host} {s : Progress} {demand : Prop}

/-- A lookup finds a path exactly if a demand is met, and otherwise the path is too long. -/
inductive Finds (demand : Prop) : Except Fault Path → Prop
  | found {p : Path} (met : demand) : Finds demand (.ok p)
  | tooLong (unmet : ¬demand) : Finds demand (.error .nameTooLong)

theorem Finds.of_iff {lookup : Except Fault Path} (met : (∃ p, lookup = .ok p) ↔ demand)
    (error : ∀ fault, lookup = .error fault → fault = .nameTooLong) : Finds demand lookup := by
  cases lookup with
  | ok p => exact .found (met.1 ⟨p, rfl⟩)
  | error fault =>
    rw [error fault rfl]
    refine .tooLong fun hdemand => ?_
    obtain ⟨p, hp⟩ := met.2 hdemand
    cases hp

theorem finds_settle {p : Path} (named : h.cwd.isNamed = true) (nonempty : p.bytes ≠ []) :
    Finds (h.files.HasCanonical h.cwd p) (h.files.settle h.cwd p) :=
  .of_iff (FileSystem.settle_ok_iff named nonempty)
    fun _ => FileSystem.settle_error named nonempty

theorem finds_romSource (named : h.cwd.isNamed = true) : Finds True (romSource h o d) := by
  obtain ⟨rom, hrom⟩ := (romSource_ok_iff (o := o) (d := d) (h := h)).2 fun _ => .inr named
  rw [hrom]
  exact .found trivial

theorem finds_imageSource (named : h.cwd.isNamed = true) :
    Finds (h.files.HasCanonical h.cwd (.ofString o.imageName)) (imageSource h o d) := by
  refine .of_iff imageSource_ok_iff fun fault herror => ?_
  cases hpresent : h.isPresent (.ofString o.imageName) with
  | false =>
    rw [imageSource_of_absent hpresent] at herror
    cases herror
  | true =>
    rw [imageSource_of_present hpresent] at herror
    exact FileSystem.canonical_error named hpresent herror

theorem imageSource_nonempty {source : Path} (found : imageSource h o d = .ok source) :
    source.bytes ≠ [] := by
  cases hpresent : h.isPresent (.ofString o.imageName) with
  | true =>
    rw [imageSource_of_present hpresent] at found
    have habsolute := FileSystem.isAbsolute_canonical found
    intro hempty
    simp [Path.isAbsolute, hempty] at habsolute
  | false =>
    rw [imageSource_of_absent hpresent] at found
    cases found
    obtain ⟨folder, name, hends⟩ := d.image_endsIn o.imageName o.uboot
    exact hends.bytes_ne_nil

theorem finds_imageSettled (named : h.cwd.isNamed = true) :
    Finds (h.files.HasCanonical h.cwd (.ofString o.imageName) ∧
        ∀ source, IsImageSource h o d source → h.files.HasCanonical h.cwd source)
      (imageSource h o d >>= h.files.settle h.cwd) := by
  have hfinds := finds_imageSource (o := o) (d := d) named
  cases hsource : imageSource h o d with
  | error fault =>
    rw [hsource] at hfinds
    cases hfinds with
    | tooLong unmet => exact .tooLong fun hboth => unmet hboth.1
  | ok source =>
    rw [hsource] at hfinds
    cases hfinds with
    | found met =>
      have hsettle := finds_settle named (imageSource_nonempty hsource)
      simp only [bind, Except.bind]
      generalize h.files.settle h.cwd source = settled at hsettle
      cases hsettle with
      | found hcanonical =>
        refine .found ⟨met, fun other hother => ?_⟩
        cases hsource.symm.trans (imageSource_eq_ok_iff.2 hother)
        exact hcanonical
      | tooLong unmet =>
        exact .tooLong fun hboth => unmet (hboth.2 source (imageSource_eq_ok_iff.1 hsource))

/-- The one failure that a path can be to a dry run. -/
def IsTooLong (e : Failure) : Prop := e = .io .nameTooLong

theorem plainStage_decides_dry {artifact : Artifact} {lookup : Except Fault Path}
    (finds : Finds demand lookup) :
    Decides demand IsTooLong s (plainStage artifact lookup true s) := by
  cases finds with
  | found met =>
    simp only [plainStage, isAmiss, Bool.not_true, Option.any_none, Bool.or_self, Bool.and_false,
      Bool.false_eq_true, if_false]
    exact .passed met rfl
  | tooLong unmet => exact .failed unmet rfl

theorem ownStage_decides_dry {artifact : Artifact} {lookup : Except Fault Path}
    {sidecar overlay : Path} (fresh : s.host.isPresent overlay = false)
    (finds : Finds demand lookup) :
    Decides demand IsTooLong s (ownStage artifact lookup sidecar overlay true s) := by
  cases finds with
  | @found source met =>
    obtain ⟨t, hend, hhost⟩ := ownArtifact_dry s artifact source sidecar fresh
    rw [show ownStage artifact (.ok source) sidecar overlay true s = .ok sidecar t from hend]
    exact .passed met hhost
  | tooLong unmet => exact .failed unmet rfl

/-- The paths that a dry run makes canonical have such a form, if they are paths of something: that
of the kernel, the name of the image, and without an overlay the path of the image. -/
structure PathsNamed (h : Host) (o : Options) (machine : String) : Prop where
  kernel : o.efi = false → o.uboot = false →
    h.files.HasCanonical h.cwd (Deployment.kernel ⟨o.dir, machine⟩)
  given : h.files.HasCanonical h.cwd (.ofString o.imageName)
  image : o.overlay = none → ∀ source, IsImageSource h o ⟨o.dir, machine⟩ source →
    h.files.HasCanonical h.cwd source

def dryDemands (h : Host) (o : Options) : Demands where
  boot machine := o.efi = false → o.uboot = false →
    h.files.HasCanonical h.cwd (Deployment.kernel ⟨o.dir, machine⟩)
  image machine := h.files.HasCanonical h.cwd (.ofString o.imageName) ∧
    (o.overlay = none → ∀ source, IsImageSource h o ⟨o.dir, machine⟩ source →
      h.files.HasCanonical h.cwd source)
  bootFailure := IsTooLong
  imageFailure := IsTooLong

theorem pathsNamed_iff {machine : String} :
    PathsNamed h o machine ↔ (dryDemands h o).boot machine ∧ (dryDemands h o).image machine :=
  ⟨fun named => ⟨named.kernel, named.given, named.image⟩,
    fun ⟨hboot, hgiven, himage⟩ => ⟨hboot, hgiven, himage⟩⟩

theorem chooseBootImage_decides_dry (machine : String) (dry : o.dryRun = true)
    (named : h.cwd.isNamed = true)
    (fresh : ∀ overlay, o.overlay = some overlay → h.isPresent overlay = false) :
    Decides ((dryDemands h o).boot machine) IsTooLong h.begin
      (chooseBootImage o ⟨o.dir, machine⟩ h.begin) := by
  generalize hrun : chooseBootImage o ⟨o.dir, machine⟩ h.begin = r
  have hrom (off : o.uboot = true) : True ↔ (dryDemands h o).boot machine := by
    simp [dryDemands, off]
  cases chooseBootImage_run hrun with
  | firmware hefi => exact .passed (fun hoff => by simp [hefi] at hoff) rfl
  | kernel hefi hoff =>
    obtain ⟨folder, name, hends⟩ := Deployment.kernel_endsIn ⟨o.dir, machine⟩
    rw [dry]
    have hdecides : Decides _ IsTooLong h.begin (plainStage .kernelImage _ true h.begin) :=
      plainStage_decides_dry (finds_settle named hends.bytes_ne_nil)
    exact (hdecides.map _).congr (by simp [dryDemands, hefi, hoff])
  | plainRom _ huboot hplain =>
    rw [dry]
    exact ((plainStage_decides_dry (finds_romSource named)).map _).congr (hrom huboot)
  | ownRom _ huboot hgiven =>
    rw [dry]
    exact ((ownStage_decides_dry (fresh _ hgiven) (finds_romSource named)).map _).congr (hrom huboot)

theorem chooseImage_decides_dry (machine : String) (dry : o.dryRun = true)
    (named : h.cwd.isNamed = true) (host : s.host = h)
    (fresh : ∀ overlay, o.overlay = some overlay → h.isPresent overlay = false) :
    Decides ((dryDemands h o).image machine) IsTooLong s (chooseImage o ⟨o.dir, machine⟩ s) := by
  generalize hrun : chooseImage o ⟨o.dir, machine⟩ s = r
  subst host
  cases chooseImage_run hrun with
  | plain hplain =>
    rw [dry]
    exact (plainStage_decides_dry (finds_imageSettled named)).congr (by simp [dryDemands, hplain])
  | own hgiven =>
    rw [dry]
    exact (ownStage_decides_dry (fresh _ hgiven) (finds_imageSource named)).congr
      (by simp [dryDemands, hgiven])

theorem prepare_files_dry {probe : Probe} {r : Ending Launch} (dry : o.dryRun = true)
    (h : prepare probe o s = r) : r.progress.host.files = s.host.files := by
  obtain ⟨mid, hrom, himage⟩ := prepare_files h
  generalize r.progress.host.files = after at himage
  cases himage with
  | still =>
    cases hrom with
    | still => rfl
    | made _ _ _ copy => exact absurd (dry.symm.trans copy.real) (by simp)
  | made _ _ copy => exact absurd (dry.symm.trans copy.real) (by simp)

/-- A dry run changes no file. Without an overlay, or with one that is not there, it fails for three
reasons only: its machine or a port cannot be found, or a path that it makes canonical is that of
something and has no canonical form. What keeps a directory from being listed is one of the reasons
why its machine cannot be found. -/
theorem dryRun_tolerates (probe : Probe) (o : Options) (h : Host) (dry : o.dryRun = true) :
    let run := h.run (prepare probe o)
    run.host.files = h.files ∧
    (h.cwd.isNamed = true →
      (∀ overlay, o.overlay = some overlay → h.isPresent overlay = false) →
      ((∃ launch, run.result = .ok launch) ↔ (o.uboot = true ∨ o.overlay = none) ∧
        ∃ machine, IsMachine h o machine ∧ PathsNamed h o machine ∧
          Port.HasFree h.held Port.serialStart ∧ Port.HasFree h.held Port.sshStart) ∧
      ∀ e, run.result = .error e →
        (∃ fault, e = .config fault) ∨ (∃ start stop, e = .portExhausted start stop) ∨
          (o.machine = .detect ∧ ∃ fault, e = .io fault ∧ Unlistable h o.dir fault) ∨
          e = .io .nameTooLong ∧ ∃ machine, IsMachine h o machine ∧ ¬PathsNamed h o machine) := by
  intro run
  constructor
  · simp only [run, Host.run_eq, Ending.outcome_host]
    exact prepare_files_dry (s := h.begin) dry rfl
  · intro named fresh
    have hverdict : Verdict h o (dryDemands h o) run.result :=
      prepare_verdict (fun machine _ => chooseBootImage_decides_dry machine dry named fresh)
        fun machine s _ host => chooseImage_decides_dry machine dry named host fresh
    constructor
    · rw [hverdict.succeeds_iff, Demands.AreMet]
      simp only [pathsNamed_iff, and_assoc]
    · intro e hfailure
      rw [hfailure] at hverdict
      cases hverdict with
      | unfit => exact .inl ⟨_, rfl⟩
      | machineless _ less =>
        rcases less.failure with hconfig | hunlistable
        · exact .inl hconfig
        · exact .inr (.inr (.inl ⟨less.asked, hunlistable⟩))
      | @bootless machine _ _ known unmet failure =>
        exact .inr (.inr (.inr
          ⟨failure, machine, known, fun paths => unmet (pathsNamed_iff.1 paths).1⟩))
      | @imageless machine _ _ known _ unmet failure =>
        exact .inr (.inr (.inr
          ⟨failure, machine, known, fun paths => unmet (pathsNamed_iff.1 paths).2⟩))
      | consoleless => exact .inr (.inl ⟨_, _, rfl⟩)
      | unreachable => exact .inr (.inl ⟨_, _, rfl⟩)

end Preparation

/-- A host without files. -/
def Sample.bare : Host := host { entries := [], fits := by simp, bars := [] }

namespace Preparation

/-- A dry run does without every artifact. -/
theorem dryRun_tolerates_sample :
    let o : Options := { Sample.options with overlay := none, dryRun := true }
    ∃ launch, (Sample.bare.run (prepare (.known false) o)).result = .ok launch := by
  intro o
  obtain ⟨-, hdecided⟩ := dryRun_tolerates (.known false) o Sample.bare rfl
  have habsent : Sample.bare.isPresent (.ofString "i") = false := by decide +kernel
  have hnothing (p : Path) (h : Sample.bare.isPresent p = false) :
      Sample.bare.files.HasCanonical Sample.bare.cwd p := by
    intro hpresent
    cases h.symm.trans hpresent
  refine (hdecided rfl (by simp [o])).1.2 ⟨.inr rfl, "m", .given rfl, ⟨?_, ?_, ?_⟩, ?_, ?_⟩
  · intro _ hoff
    cases hoff
  · exact hnothing _ habsent
  · intro _ source hsource
    have hrecipe : imageSource Sample.bare o ⟨o.dir, "m"⟩
        = .ok (.ofString "/d/m/i-m.wic") := by
      decide +kernel
    cases hrecipe.symm.trans (imageSource_eq_ok_iff.2 hsource)
    exact hnothing _ (by decide +kernel)
  · exact ⟨8990, by decide, by decide, by decide⟩
  · exact ⟨2222, by decide, by decide, by decide⟩

/-- A path that is too long to be canonical ends a dry run, although the disk image is there. -/
theorem dryRun_fails_in_depth :
    ¬∀ (probe : Probe) (o : Options) (h : Host), o.dryRun = true → h.cwd.isNamed = true →
      (∀ overlay, o.overlay = some overlay → h.isPresent overlay = false) →
      (o.uboot = true ∨ o.overlay = none) → (∃ machine, IsMachine h o machine) →
      Port.HasFree h.held Port.serialStart → Port.HasFree h.held Port.sshStart →
      ∃ launch, (h.run (prepare probe o)).result = .ok launch := by
  intro hclaim
  obtain ⟨launch, hlaunch⟩ := hclaim (.known false) { Sample.inDepth with dryRun := true }
    Sample.deep rfl (by decide +kernel) (by simp [Sample.inDepth]) (.inr rfl) ⟨"m", .given rfl⟩
    ⟨8990, by decide, by decide, by decide⟩ ⟨2222, by decide, by decide, by decide⟩
  have hfailed : (Sample.deep.run (prepare (.known false)
      { Sample.inDepth with dryRun := true })).result = .error (.io .nameTooLong) := by
    decide +kernel
  cases hfailed.symm.trans hlaunch

end Preparation

end LaunchPlan
