import LaunchPlan.Proofs.Options.Respelled
import LaunchPlan.Proofs.Preparation.Presence
import LaunchPlan.Proofs.Preparation.Requirements
import LaunchPlan.Proofs.Preparation.Twins

/-!
Preparations of options from one file that is named in two ways. Main statements: `rebase_twin`,
what is read are two spellings of the same options, `prepare_respelled`, such options come to the
same, and `options_file_respelled`, so it makes no difference how the file is named, unless a path
is too long.
-/

namespace LaunchPlan

open LaunchPlan.Path Location

theorem Host.standsAt {h : Host} {base : Path} (grounded : h.files.IsGrounded h.cwd)
    (here : h.cwd.path? = some base) : h.files.StandsAt h.cwd base := by
  have hnamed : h.cwd.isNamed = true := by
    refine List.all_eq_true.2 fun name hname => ?_
    simpa using Location.named_of_path here hname
  have hstanding : h.files.isStanding h.cwd = true := grounded hnamed
  exact ⟨here, FileSystem.proper_of_isNamed hnamed hstanding, hstanding⟩

/-- Paths that come to the same on one host. -/
def Pairing.onHost (h : Host) : Pairing where
  files := h.files
  cwd := h.cwd
  cwd' := h.cwd
  pairs := h.files.SameWay h.cwd h.cwd
  rooted _ := .refl _ _ _
  sameWay := id

namespace Options

variable {h : Host} {base front other : Path} {w : Options}

/-- No path that files are looked for by is empty. -/
structure HasNoEmptyPath (w : Options) : Prop where
  dir : w.dir.bytes ≠ []
  bootloader : ∀ path ∈ w.bootloader, path.bytes ≠ []
  overlay : ∀ path ∈ w.overlay, path.bytes ≠ []

/-- Of each path that is looked for, both spellings can be followed by their length, or neither. -/
structure LengthsAgree (h : Host) (o o' : Options) : Prop where
  dir : o.machine = .detect → o.dir.LengthsAgree o'.dir
  bootloader : o.efi = false → o.uboot = true → ∀ path ∈ o.bootloader, ∀ path' ∈ o'.bootloader,
    path.LengthsAgree path'
  overlay : ∀ overlay ∈ o.overlay, ∀ overlay' ∈ o'.overlay, overlay.LengthsAgree overlay' ∧
    (o.efi = false → (romSidecar overlay).LengthsAgree (romSidecar overlay')) ∧
    (imageSidecar overlay).LengthsAgree (imageSidecar overlay')
  kernel : ∀ machine, Preparation.machineOf h o = .ok machine → o.efi = false → o.uboot = false →
    (Deployment.kernel ⟨o.dir, machine⟩).LengthsAgree (Deployment.kernel ⟨o'.dir, machine⟩)
  image : ∀ machine, Preparation.machineOf h o = .ok machine →
    h.isPresent (.ofString o.imageName) = false →
    (Deployment.image ⟨o.dir, machine⟩ o.imageName (diskExtension o.uboot machine)).LengthsAgree
      (Deployment.image ⟨o'.dir, machine⟩ o.imageName (diskExtension o.uboot machine))

/-- Options read from two directory parts of one path are two spellings of the same options. -/
theorem rebase_twin (stands : h.files.StandsAt h.cwd base) (reads : ReadsFromBoth base front other)
    (nonempty : w.HasNoEmptyPath) (lengths : (w.rebase front).LengthsAgree h (w.rebase other)) :
    (w.rebase front).Twin (.onHost h) h (w.rebase other) := by
  have hpair {p q : Path} (spellings : Respelled base p q) (agree : p.LengthsAgree q) :
      h.files.SameWay h.cwd h.cwd p q := FileSystem.sameWay_respelled stands spellings agree
  have hdeployed (machine : String) (file : Path) :
      Respelled base (Path.join (Deployment.machineDirectory ⟨(w.rebase front).dir, machine⟩) file)
        (Path.join (Deployment.machineDirectory ⟨(w.rebase other).dir, machine⟩) file) :=
    ((reads w.dir nonempty.dir).join _).join file
  constructor
  · rfl
  · exact fun asked => hpair (reads w.dir nonempty.dir) (lengths.dir asked)
  · have hlengths := lengths.bootloader
    simp only [rebase] at hlengths ⊢
    cases hgiven : w.bootloader with
    | none => exact .none
    | some path =>
      rw [hgiven] at hlengths
      refine .some fun efi on => hpair (reads path (nonempty.bootloader path hgiven)) ?_
      exact hlengths efi on _ rfl _ rfl
  · have hlengths := lengths.overlay
    simp only [rebase] at hlengths ⊢
    cases hgiven : w.overlay with
    | none => exact .none
    | some overlay =>
      rw [hgiven] at hlengths
      obtain ⟨hoverlay, hrom, himage⟩ := hlengths _ rfl _ rfl
      have hreads := reads overlay (nonempty.overlay overlay hgiven)
      exact .some ⟨hpair hreads hoverlay,
        fun efi => hpair (hreads.withSuffix (by decide)) (hrom efi),
        hpair (hreads.withSuffix (by decide)) himage⟩
  · exact fun machine _ => (FileSystem.absolute_respelled stands (hdeployed machine _)).symm
  · intro machine known efi off
    exact hpair (hdeployed machine _) (lengths.kernel machine known efi off)
  · intro machine known absent
    exact hpair (hdeployed machine _) (lengths.image machine known absent)

end Options

theorem BootImage.Alike.follow_eq {fs after : FileSystem} {cwd : Location} {b b' : BootImage}
    (alike : b.Alike (fs.SameWay cwd cwd) b') (grows : fs.Grows after) :
    after.follow cwd b'.path = after.follow cwd b.path := by
  cases alike with
  | same => rfl
  | bios hpaths => exact (hpaths.later grows).follow.symm

namespace Preparation

/-- Two preparations end alike: with the same kind of failure, for the same reason and with the same
artifact, or with launches of one machine whose files are the same ones. Files that are looked for
by absolute paths have the same path. -/
inductive EndsAlike (h : Host) (o : Options) (after : FileSystem) :
    Except Failure Launch → Except Failure Launch → Prop
  | failed {e e' : Failure} (failures : e.Alike (h.files.SameWay h.cwd h.cwd) e') :
      EndsAlike h o after (.error e) (.error e')
  | decided {l l' : Launch} (machine : l'.machine = l.machine)
      (plainImage : o.overlay = none → l'.image = l.image)
      (deployedBoot : o.overlay = none → o.bootloader = none → l'.bootImage = l.bootImage)
      (image : after.follow h.cwd l'.image = after.follow h.cwd l.image)
      (bootImage : after.follow h.cwd l'.bootImage.path = after.follow h.cwd l.bootImage.path)
      (overlay : Option.Rel (fun v v' => after.follow h.cwd v' = after.follow h.cwd v)
        l.overlay l'.overlay) :
      EndsAlike h o after (.ok l) (.ok l')

variable {h : Host} {o o' : Options}

theorem EndsAlike.of_both {after : FileSystem} {r r' : Except Failure Launch}
    (options : o.Twin (.onHost h) h o') (grown : h.files.Grows after)
    (both : Both (Failure.Alike (h.files.SameWay h.cwd h.cwd))
      (Launch.Alike (h.files.SameWay h.cwd h.cwd) o o') r r') : EndsAlike h o after r r' := by
  cases both with
  | error hfailures => exact .failed hfailures
  | @ok launch launch' hlaunches =>
    have hmachine : launch'.machine = launch.machine := by rw [hlaunches.rest]
    have hoverlay' : launch'.overlay = o'.overlay := by rw [hlaunches.rest]
    refine .decided hmachine (fun plain => (hlaunches.plainImage plain).symm)
      (fun plain deployed => (hlaunches.deployedBoot plain deployed).symm)
      (hlaunches.image.later grown).follow.symm (hlaunches.bootImage.follow_eq grown) ?_
    rw [hlaunches.overlay, hoverlay']
    rcases both_or_neither options.overlay with ⟨hnone, hnone'⟩ | ⟨v, v', hgiven, hgiven', hpairs⟩
    · rw [hnone, hnone']
      exact .none
    · rw [hgiven, hgiven']
      exact .some (hpairs.1.later grown).follow.symm

/-- Two spellings of the same options come to the same. -/
theorem prepare_respelled (probe : Probe) (options : o.Twin (.onHost h) h o') :
    let first := h.run (prepare probe o)
    let second := h.run (prepare probe o')
    second.host.files = first.host.files ∧
      EndsAlike h o first.host.files first.result second.result := by
  intro first second
  have htwins : Outcome.Twins (.onHost h) o o' first second :=
    run_twins probe rfl rfl options (.inl (.refl _ _ _))
  exact ⟨htwins.files, .of_both options htwins.grown htwins.result⟩

/-- Options from a file that is named by a relative path, or by the same path after that of the
working directory, come to the same, unless the longer spelling of a path is too long. -/
theorem options_file_respelled (probe : Probe) (h : Host) {base path : Path}
    (grounded : h.files.IsGrounded h.cwd) (here : h.cwd.path? = some base)
    (relative : path.isAbsolute = false) :
    ((∃ o', Options.load h (base.join path) = .ok o') ↔
      (∃ o, Options.load h path = .ok o) ∧ (base.join path).bytes.length < FileSystem.maxPath) ∧
    ∀ w o o', Options.written h path = .ok w → w.HasNoEmptyPath →
      Options.load h path = .ok o → Options.load h (base.join path) = .ok o' →
      o.LengthsAgree h o' →
      (h.run (prepare probe o')).host.files = (h.run (prepare probe o)).host.files ∧
      EndsAlike h o (h.run (prepare probe o)).host.files (h.run (prepare probe o)).result
        (h.run (prepare probe o')).result := by
  have hstands := Host.standsAt grounded here
  refine ⟨Options.load_respelled_iff hstands relative, ?_⟩
  intro w o o' hwritten hnonempty hloaded hloaded' hlengths
  obtain ⟨w', front, other, hwritten', rfl, rfl, hreads⟩ :=
    Options.load_respelled hstands relative hloaded hloaded'
  obtain rfl : w = w' := Except.ok.inj (hwritten.symm.trans hwritten')
  exact prepare_respelled probe (Options.rebase_twin hstands hreads hnonempty hlengths)

end Preparation

namespace Sample

/-- A file of options that name the deployment by a way up, and an overlay beside them. -/
def configuration : Location × Entry :=
  (place ["w", "o"], .file (Text.encode
    "{dir: ../d, machine: m, image_name: i, overlay: v, mac: 52:54:00:00:00:01, kvm: false}") false)

/-- A host with the file of options in its working directory. -/
def configured : Host :=
  { host (files [rom, image, (place ["w"], .directory), configuration] (by decide +kernel)) with
    cwd := place ["w"] }

/-- Two files of options in a deep directory, one of which has a short name. They name what lies
beside them. -/
def buriedEntries : List (Location × Entry) :=
  let options :=
    "{machine: m, image_name: i, bootloader: r, overlay: v, mac: 52:54:00:00:00:01, kvm: false}"
  let here (name : String) (content : List UInt8) : Location × Entry :=
    (Text.encode name :: brink, .file content false)
  [here "o" (Text.encode options), here "options" (Text.encode options), here "r" [1],
    here "i" [2], (brink, .directory)] ++ stairs 15

def buried : Host :=
  let files : FileSystem := { entries := buriedEntries, fits := by decide +kernel, bars := [] }
  { host files with cwd := brink }

/-- What the files of options say. -/
def besides : Options :=
  { options with
    dir := .ofString "tmp/deploy/images"
    bootloader := some (.ofString "r")
    overlay := some (.ofString "v") }

theorem buried_isGrounded : buried.files.IsGrounded buried.cwd := fun _ => by decide +kernel

theorem buried_path : buried.cwd.path? = some (fromRoot brink.reverse) :=
  path_of_isNamed (by decide +kernel)

theorem buried_depth : Location.pathLength buried.cwd + 5 = FileSystem.maxPath := by decide +kernel

theorem buried_written (name : String) (known : name = "o" ∨ name = "options") :
    Options.written buried (.ofString name) = .ok besides := by
  rcases known with rfl | rfl
  · decide +kernel
  · decide +kernel

theorem buried_load (name : String) (known : name = "o" ∨ name = "options") :
    Options.load buried (.ofString name) = .ok besides := by
  have hparent : (Path.ofString name).parent? = some .empty := by
    rcases known with rfl | rfl
    · decide
    · decide
  rw [Options.load_of_parent (buried_written name known) hparent]
  rfl

end Sample

namespace Preparation

/-- Options that lead up and out of the directory of their file. -/
theorem options_file_respelled_sample :
    let named := { Sample.options with dir := .ofString "../d", overlay := some (.ofString "v") }
    let respelled :=
      { Sample.options with dir := .ofString "/w/../d", overlay := some (.ofString "/w/v") }
    Options.load Sample.configured (.ofString "o") = .ok named ∧
      Options.load Sample.configured ((Path.ofString "/w").join (.ofString "o")) = .ok respelled ∧
      (Sample.configured.run (prepare (.known false) respelled)).host.files
        = (Sample.configured.run (prepare (.known false) named)).host.files := by
  intro named respelled
  have hgrounded : Sample.configured.files.IsGrounded Sample.configured.cwd :=
    fun _ => by decide +kernel
  have hwritten : Options.written Sample.configured (.ofString "o") = .ok named := by decide +kernel
  have hloaded : Options.load Sample.configured (.ofString "o") = .ok named := by decide +kernel
  have hloaded' : Options.load Sample.configured ((Path.ofString "/w").join (.ofString "o"))
      = .ok respelled := by decide +kernel
  have hnonempty : named.HasNoEmptyPath := by
    refine ⟨by decide, fun path hpath => ?_, fun path hpath => ?_⟩
    · cases hpath
    · cases hpath
      decide
  have hlengths : named.LengthsAgree Sample.configured respelled := by
    refine ⟨fun hasked => ?_, fun _ _ path hpath => ?_, fun v hv v' hv' => ?_,
      fun _ _ _ hoff => ?_, fun machine hknown _ => ?_⟩
    · cases hasked
    · cases hpath
    · cases hv
      cases hv'
      exact ⟨by decide, fun _ => by decide, by decide⟩
    · cases hoff
    · cases hknown
      decide +kernel
  obtain ⟨-, hsame⟩ := options_file_respelled (.known false) Sample.configured hgrounded
    (by decide +kernel : Sample.configured.cwd.path? = some (.ofString "/w"))
    (by decide : (Path.ofString "o").isAbsolute = false)
  exact ⟨hloaded, hloaded',
    (hsame named named respelled hwritten hnonempty hloaded hloaded' hlengths).1⟩

/-- In a deep directory a file can be read by a relative path, but not by the path of the directory
and that. -/
theorem load_out_of_reach :
    ¬∃ o', Options.load Sample.buried
      ((fromRoot Sample.brink.reverse).join (.ofString "options")) = .ok o' := by
  have hstands := Host.standsAt Sample.buried_isGrounded Sample.buried_path
  rw [Options.load_respelled_iff hstands (by decide),
    length_join hstands.path hstands.plain (by decide), not_and]
  have hdepth := Sample.buried_depth
  have hname : (Path.ofString "options").bytes.length = 7 := by decide
  omega

/-- A shorter name is read both ways, but the overlay's copies can only be made by their relative
paths. -/
theorem prepare_out_of_reach {o' : Options}
    (loaded : Options.load Sample.buried
      ((fromRoot Sample.brink.reverse).join (.ofString "o")) = .ok o') (launch : Launch) :
    (Sample.buried.run (prepare (.known false) o')).result ≠ .ok launch := by
  intro hdecided
  have hstands := Host.standsAt Sample.buried_isGrounded Sample.buried_path
  obtain ⟨w, front, other, hwritten, hnamed, rfl, hreads⟩ :=
    Options.load_respelled hstands (by decide) (Sample.buried_load "o" (.inl rfl)) loaded
  obtain rfl : Sample.besides = w :=
    Except.ok.inj ((Sample.buried_written "o" (.inl rfl)).symm.trans hwritten)
  have hfront : front.join (.ofString "v") = .ofString "v" :=
    (Option.some.inj (congrArg Options.overlay hnamed)).symm
  have hlong := FileSystem.long_of_respelled hstands (hreads (.ofString "v") (by decide))
    (by rw [hfront]; decide)
  have hsidecar :
      FileSystem.maxPath ≤ (imageSidecar (other.join (.ofString "v"))).bytes.length := by
    have hdepth := Sample.buried_depth
    have hsuffix : (Text.encode ".img").length = 4 := by decide
    simp only [imageSidecar, withSuffix, List.length_append, hsuffix]
    omega
  obtain ⟨t, hend, -⟩ := Host.run_ok hdecided
  obtain ⟨u, v, stages⟩ := prepare_stages hend
  obtain ⟨hpresent, -⟩ := prepare_present (.inl rfl) hend
  rw [chooseImage_own rfl stages.disk, Host.isPresent,
    FileSystem.not_isPresent_too_long hsidecar] at hpresent
  cases hpresent

/-- In a deep directory it makes a difference how a file of options is named: with a longer name it
may not be read, and options from it may come to nothing. -/
theorem options_file_out_of_reach :
    (¬∀ (h : Host) (base path : Path), h.files.IsGrounded h.cwd → h.cwd.path? = some base →
      path.isAbsolute = false →
      ((∃ o', Options.load h (base.join path) = .ok o') ↔ ∃ o, Options.load h path = .ok o)) ∧
    ¬∀ (probe : Probe) (h : Host) (base path : Path) (w o o' : Options),
      h.files.IsGrounded h.cwd →
      h.cwd.path? = some base → path.isAbsolute = false → Options.written h path = .ok w →
      w.HasNoEmptyPath → Options.load h path = .ok o → Options.load h (base.join path) = .ok o' →
      ((∃ launch, (h.run (prepare probe o)).result = .ok launch) ↔
        ∃ launch, (h.run (prepare probe o')).result = .ok launch) := by
  constructor
  · intro hclaim
    have hreadable := (hclaim Sample.buried _ (.ofString "options") Sample.buried_isGrounded
      Sample.buried_path (by decide)).2 ⟨_, Sample.buried_load "options" (.inr rfl)⟩
    exact load_out_of_reach hreadable
  · intro hclaim
    have hstands := Host.standsAt Sample.buried_isGrounded Sample.buried_path
    have hdepth := Sample.buried_depth
    have hshort : ((fromRoot Sample.brink.reverse).join (.ofString "o")).bytes.length
        < FileSystem.maxPath := by
      have hname : (Path.ofString "o").bytes.length = 1 := by decide
      rw [length_join hstands.path hstands.plain (by decide)]
      omega
    have hloaded := Sample.buried_load "o" (.inl rfl)
    obtain ⟨o', hloaded'⟩ :=
      (Options.load_respelled_iff hstands (by decide)).2 ⟨⟨_, hloaded⟩, hshort⟩
    have hnonempty : Sample.besides.HasNoEmptyPath := by
      refine ⟨by decide, fun path hpath => ?_, fun path hpath => ?_⟩
      · cases hpath
        decide
      · cases hpath
        decide
    have hdecided : (Sample.buried.run (prepare (.known false) Sample.besides)).result
        = .ok (Sample.besides.launch "m" (.bios (.ofString "v.u-boot.rom")) (.ofString "v.img")
          (⟨0x52, 0x54, 0, 0, 0, 1⟩, none) 8990 2222 false) := by
      decide +kernel
    obtain ⟨launch', hlaunch'⟩ := (hclaim (.known false) Sample.buried _ _ _ _ o'
      Sample.buried_isGrounded Sample.buried_path (by decide) (Sample.buried_written "o" (.inl rfl))
      hnonempty hloaded hloaded').1 ⟨_, hdecided⟩
    exact prepare_out_of_reach hloaded' launch' hlaunch'

end Preparation

end LaunchPlan
