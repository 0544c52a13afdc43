import LaunchPlan.Proofs.FileSystem.SameWay
import LaunchPlan.Proofs.Overlay.FirstUse
import Mathlib.Data.List.Forall2

/-!
Two preparations side by side, which read their paths in working directories of their own and may
spell them differently. Main statements: `prepare_twins` and, for whole runs, `run_twins`, if their
paths come in pairs that lead the same way, they do the same to the files and end alike, with paths
that come in pairs.
-/

namespace LaunchPlan

/-- Both succeed, with values that belong together, or both fail, with such reasons. -/
inductive Both {ε α : Type} (E : ε → ε → Prop) (V : α → α → Prop) :
    Except ε α → Except ε α → Prop
  | ok {a a' : α} (values : V a a') : Both E V (.ok a) (.ok a')
  | error {e e' : ε} (reasons : E e e') : Both E V (.error e) (.error e')

theorem Both.of_eq {ε α : Type} {V : α → α → Prop} {r r' : Except ε α} (same : r = r')
    (values : ∀ a, r = .ok a → V a a) : Both Eq V r r' := by
  subst same
  cases r with
  | ok a => exact .ok (values a rfl)
  | error e => exact .error rfl

theorem both_or_neither {α : Type} {R : α → α → Prop} {a a' : Option α} (h : Option.Rel R a a') :
    (a = none ∧ a' = none) ∨ ∃ x x', a = some x ∧ a' = some x' ∧ R x x' := by
  cases h with
  | none => exact .inl ⟨rfl, rfl⟩
  | some values => exact .inr ⟨_, _, rfl, rfl, values⟩

theorem Both.imp {ε α : Type} {E : ε → ε → Prop} {V V' : α → α → Prop} {r r' : Except ε α}
    (both : Both E V r r') (values : ∀ {a a'}, V a a' → V' a a') : Both E V' r r' := by
  cases both with
  | ok hvalues => exact .ok (values hvalues)
  | error hreasons => exact .error hreasons

theorem Both.of_ok {ε α : Type} {E : ε → ε → Prop} {V : α → α → Prop} {r : Except ε α} {a : α}
    (both : Both E V (.ok a) r) : ∃ a', r = .ok a' ∧ V a a' := by
  cases both with
  | ok hvalues => exact ⟨_, rfl, hvalues⟩

theorem Both.of_error {ε α : Type} {E : ε → ε → Prop} {V : α → α → Prop} {r : Except ε α} {e : ε}
    (both : Both E V (.error e) r) : ∃ e', r = .error e' ∧ E e e' := by
  cases both with
  | error hreasons => exact ⟨_, rfl, hreasons⟩

theorem Both.bind {ε α β : Type} {E : ε → ε → Prop} {V : α → α → Prop} {V' : β → β → Prop}
    {r r' : Except ε α} {f f' : α → Except ε β} (both : Both E V r r')
    (next : ∀ {a a'}, V a a' → Both E V' (f a) (f' a')) : Both E V' (r >>= f) (r' >>= f') := by
  cases both with
  | ok hvalues => exact next hvalues
  | error hreasons => exact .error hreasons

/-- Two working directories, on files that may only be added to, and which path of the one is taken
for which of the other. -/
structure Pairing where
  files : FileSystem
  cwd : Location
  cwd' : Location
  pairs : Path → Path → Prop
  rooted : ∀ {p : Path}, p.isAbsolute = true → pairs p p
  sameWay : ∀ {p p' : Path}, pairs p p' → files.SameWay cwd cwd' p p'

/-! What belongs together once paths do. -/

inductive ConfigFault.Alike (R : Path → Path → Prop) : ConfigFault → ConfigFault → Prop
  | same (fault : ConfigFault) : Alike R fault fault
  | imagesDirectoryMissing {dir dir' : Path} (dirs : R dir dir') :
      Alike R (.imagesDirectoryMissing dir) (.imagesDirectoryMissing dir')
  | machineAmbiguous {dir dir' : Path} (dirs : R dir dir') :
      Alike R (.machineAmbiguous dir) (.machineAmbiguous dir')

/-- Failures of one kind, for one reason and with one artifact. -/
inductive Failure.Alike (R : Path → Path → Prop) : Failure → Failure → Prop
  | config {fault fault' : ConfigFault} (faults : fault.Alike R fault') :
      Alike R (.config fault) (.config fault')
  | missingArtifact (artifact : Artifact) {path path' : Path} (paths : R path path') :
      Alike R (.missingArtifact artifact path) (.missingArtifact artifact path')
  | portExhausted (start stop : Port) :
      Alike R (.portExhausted start stop) (.portExhausted start stop)
  | copy {source source' target target' : Path} (sources : R source source')
      (targets : R target target') (fault : Fault) :
      Alike R (.copy source target fault) (.copy source' target' fault)
  | io (fault : Fault) : Alike R (.io fault) (.io fault)

inductive BootImage.Alike (R : Path → Path → Prop) : BootImage → BootImage → Prop
  | same (bootImage : BootImage) : Alike R bootImage bootImage
  | bios {path path' : Path} (paths : R path path') : Alike R (.bios path) (.bios path')

structure PlannedCopy.Alike (R : Path → Path → Prop) (c c' : PlannedCopy) : Prop where
  source : R c.source c'.source
  target : R c.target c'.target

/-- The host with another working directory. -/
def Host.within (h : Host) (cwd : Location) : Host := { h with cwd }

/-- Two runs stand at the same point: their hosts differ in the working directory only, and they
printed the same copies. -/
structure Progress.Twin (w : Pairing) (s s' : Progress) : Prop where
  here : s.host.cwd = w.cwd
  host : s'.host = s.host.within w.cwd'
  grown : w.files.Grows s.host.files
  printed : List.Forall₂ (PlannedCopy.Alike w.pairs) s.journal.printed s'.journal.printed

inductive Ending.Twins {α : Type} (w : Pairing) (V : α → α → Prop) : Ending α → Ending α → Prop
  | ok {a a' : α} {s s' : Progress} (values : V a a') (twin : s.Twin w s') :
      Twins w V (.ok a s) (.ok a' s')
  | error {e e' : Failure} {s s' : Progress} (failures : e.Alike w.pairs e') (twin : s.Twin w s') :
      Twins w V (.error e s) (.error e' s')

variable {w : Pairing} {s s' : Progress} {p p' : Path}

namespace Progress.Twin

theorem sameWay (twin : s.Twin w s') (paths : w.pairs p p') :
    s.host.files.SameWay s.host.cwd s'.host.cwd p p' := by
  rw [twin.here, twin.host]
  exact (w.sameWay paths).later twin.grown

theorem files (twin : s.Twin w s') : s'.host.files = s.host.files := by
  rw [twin.host]
  rfl

theorem isPresent (twin : s.Twin w s') (paths : w.pairs p p') :
    s'.host.isPresent p' = s.host.isPresent p := by
  rw [Host.isPresent, Host.isPresent, twin.files, (twin.sameWay paths).isPresent]

theorem isAmiss {overlay overlay' : Option Path} (twin : s.Twin w s') (paths : w.pairs p p')
    (overlays : Option.Rel w.pairs overlay overlay') (dryRun : Bool) :
    Preparation.isAmiss s'.host p' overlay' dryRun
      = Preparation.isAmiss s.host p overlay dryRun := by
  have hover : overlay'.any s'.host.isPresent = overlay.any s.host.isPresent := by
    cases overlays with
    | none => rw [Option.any_none, Option.any_none]
    | some hpaths => rw [Option.any_some, Option.any_some, twin.isPresent hpaths]
  simp only [Preparation.isAmiss, twin.isPresent paths, hover]

theorem logged (twin : s.Twin w s') (events events' : List Event) :
    (s.logged events).Twin w (s'.logged events') :=
  ⟨twin.here, twin.host, twin.grown, twin.printed⟩

theorem withFiles {later : FileSystem} (twin : s.Twin w s') (grows : s.host.files.Grows later) :
    (s.withFiles later).Twin w (s'.withFiles later) := by
  refine ⟨twin.here, ?_, twin.grown.trans grows, twin.printed⟩
  rw [Progress.withFiles_host, Progress.withFiles_host, twin.host]
  rfl

theorem print {source source' target target' : Path} (twin : s.Twin w s')
    (sources : w.pairs source source') (targets : w.pairs target target') :
    (s.printed ⟨source, target⟩).Twin w (s'.printed ⟨source', target'⟩) :=
  ⟨twin.here, twin.host, twin.grown,
    List.rel_append twin.printed (.cons ⟨sources, targets⟩ .nil)⟩

end Progress.Twin

theorem Ending.Twins.map {α β : Type} {V : α → α → Prop} {V' : β → β → Prop} {r r' : Ending α}
    {f : α → β} (twins : Ending.Twins w V r r') (values : ∀ {a a'}, V a a' → V' (f a) (f a')) :
    Ending.Twins w V' (Ending.map f r) (Ending.map f r') := by
  cases twins with
  | ok hvalues htwin => exact .ok (values hvalues) htwin
  | error hfailures htwin => exact .error hfailures htwin

theorem Ending.Twins.of_ok {α : Type} {V : α → α → Prop} {r : Ending α} {a : α}
    (twins : Ending.Twins w V (.ok a s) r) : ∃ a' t, r = .ok a' t ∧ V a a' ∧ s.Twin w t := by
  cases twins with
  | ok hvalues htwin => exact ⟨_, _, rfl, hvalues, htwin⟩

theorem Ending.Twins.of_error {α : Type} {V : α → α → Prop} {r : Ending α} {e : Failure}
    (twins : Ending.Twins w V (.error e s) r) :
    ∃ e' t, r = .error e' t ∧ e.Alike w.pairs e' ∧ s.Twin w t := by
  cases twins with
  | error hfailures htwin => exact ⟨_, _, rfl, hfailures, htwin⟩

theorem Ending.Twins.imp {α : Type} {V V' : α → α → Prop} {r r' : Ending α}
    (twins : Ending.Twins w V r r') (values : ∀ {a a'}, V a a' → V' a a') :
    Ending.Twins w V' r r' := by
  cases twins with
  | ok hvalues htwin => exact .ok (values hvalues) htwin
  | error hfailures htwin => exact .error hfailures htwin

/-- Two sets of options say the same, but for the paths, and of these the ones that are looked for
come in pairs. -/
structure Options.Twin (w : Pairing) (h : Host) (o o' : Options) : Prop where
  rest : o' = { o with
    dir := o'.dir, bootloader := o'.bootloader, overlay := o'.overlay, pcap := o'.pcap }
  dir : o.machine = .detect → w.pairs o.dir o'.dir
  bootloader : Option.Rel (fun path path' => o.efi = false → o.uboot = true → w.pairs path path')
    o.bootloader o'.bootloader
  overlay : Option.Rel (fun overlay overlay' => w.pairs overlay overlay' ∧
    (o.efi = false → w.pairs (romSidecar overlay) (romSidecar overlay')) ∧
    w.pairs (imageSidecar overlay) (imageSidecar overlay')) o.overlay o'.overlay
  rom : ∀ machine, Preparation.machineOf h o = .ok machine →
    FileSystem.absolute w.cwd (Deployment.bootloader ⟨o.dir, machine⟩)
      = FileSystem.absolute w.cwd' (Deployment.bootloader ⟨o'.dir, machine⟩)
  kernel : ∀ machine, Preparation.machineOf h o = .ok machine → o.efi = false → o.uboot = false →
    w.pairs (Deployment.kernel ⟨o.dir, machine⟩) (Deployment.kernel ⟨o'.dir, machine⟩)
  image : ∀ machine, Preparation.machineOf h o = .ok machine →
    w.files.isPresent w.cwd (.ofString o.imageName) = false →
    w.pairs (Deployment.image ⟨o.dir, machine⟩ o.imageName (diskExtension o.uboot machine))
      (Deployment.image ⟨o'.dir, machine⟩ o.imageName (diskExtension o.uboot machine))

namespace Options.Twin

variable {h : Host} {o o' : Options} (twin : o.Twin w h o')

include twin

theorem machine_eq : o'.machine = o.machine := by rw [twin.rest]

theorem imageName_eq : o'.imageName = o.imageName := by rw [twin.rest]

theorem efi_eq : o'.efi = o.efi := by rw [twin.rest]

theorem uboot_eq : o'.uboot = o.uboot := by rw [twin.rest]

theorem dryRun_eq : o'.dryRun = o.dryRun := by rw [twin.rest]

theorem plain_iff : o'.overlay = none ↔ o.overlay = none := by
  rcases both_or_neither twin.overlay with ⟨hnone, hnone'⟩ | ⟨v, v', hgiven, hgiven', -⟩
  · simp [hnone, hnone']
  · simp [hgiven, hgiven']

end Options.Twin

namespace Preparation

variable {artifact : Artifact} {dryRun : Bool} {lookup lookup' : Except Fault Path}
  {V : Path → Path → Prop}

theorem soleMachine_twins {dir dir' : Path} (twin : s.Twin w s') (dirs : w.pairs dir dir') :
    Both (Failure.Alike w.pairs) Eq (soleMachine s.host dir) (soleMachine s'.host dir') := by
  unfold soleMachine
  rw [twin.files, ← (twin.sameWay dirs).isDirectory, ← (twin.sameWay dirs).list]
  split
  · exact .error (.config (.imagesDirectoryMissing dirs))
  split
  · next fault hlist => exact .error (.io fault)
  · next name hlist =>
    cases Text.decode? name with
    | some machine => exact .ok rfl
    | none => exact .error (.config (.same (.machineNotUtf8 name)))
  · exact .error (.config (.machineAmbiguous dirs))
  · exact .error (.config (.machineAmbiguous dirs))

theorem plainStage_twins (twin : s.Twin w s') (looks : Both Eq V lookup lookup')
    (paired : ∀ {p p'}, V p p' → w.pairs p p') :
    Ending.Twins w V (plainStage artifact lookup dryRun s)
      (plainStage artifact lookup' dryRun s') := by
  cases looks with
  | error hreasons =>
    subst hreasons
    exact .error (.io _) twin
  | @ok path path' hvalues =>
    have hpaths : w.pairs path path' := paired hvalues
    simp only [plainStage, twin.isAmiss hpaths .none]
    split
    · exact .error (.missingArtifact artifact hpaths) twin
    · exact .ok hvalues twin

variable {source source' sidecar sidecar' overlay overlay' : Path}

theorem ownCopy_twins (twin : s.Twin w s') (sources : w.pairs source source')
    (sidecars : w.pairs sidecar sidecar') (overlays : w.pairs overlay overlay') :
    Ending.Twins w w.pairs (ownCopy artifact source sidecar overlay dryRun s)
      (ownCopy artifact source' sidecar' overlay' dryRun s') := by
  have hsource := twin.isPresent sources
  have hsidecar := twin.isPresent sidecars
  have hoverlay := twin.isPresent overlays
  cases hthere : s.host.isPresent overlay with
  | true =>
    rw [ownCopy_there s hthere, ownCopy_there s' (hoverlay.trans hthere)]
    exact .ok sidecars (twin.logged _ _)
  | false =>
    have hfresh' : s'.host.isPresent overlay' = false := hoverlay.trans hthere
    by_cases hmiss : dryRun = false ∧ s.host.isPresent source = false
    · obtain ⟨rfl, habsent⟩ := hmiss
      rw [ownCopy_missing s hthere habsent, ownCopy_missing s' hfresh' (hsource.trans habsent)]
      exact .error (.missingArtifact artifact sources) twin
    have husable : dryRun = true ∨ s.host.isPresent source = true := by
      cases dryRun <;> simp_all
    cases hown : s.host.isPresent sidecar with
    | true =>
      rw [ownCopy_kept s hthere husable hown,
        ownCopy_kept s' hfresh' (by rwa [hsource]) (hsidecar.trans hown)]
      exact .ok sidecars (twin.logged _ _)
    | false =>
      cases dryRun with
      | true =>
        rw [ownCopy_announced s hthere hown, ownCopy_announced s' hfresh' (hsidecar.trans hown)]
        exact .ok sidecars ((twin.logged _ _).print sources sidecars)
      | false =>
        have hpresent : s.host.isPresent source = true := by simpa using husable
        rw [ownCopy_real s hthere hpresent hown,
          ownCopy_real s' hfresh' (hsource.trans hpresent) (hsidecar.trans hown), twin.files,
          ← (twin.sameWay sources).copy (twin.sameWay sidecars)]
        cases hcopy : s.host.files.copy s.host.cwd source sidecar with
        | error fault => exact .error (.copy sources sidecars fault) twin
        | ok files =>
          obtain ⟨place, file, hcopied⟩ := FileSystem.copied_of_copy hown hcopy
          exact .ok sidecars ((twin.withFiles hcopied.grows).logged _ _)

theorem ownStage_twins (twin : s.Twin w s') (looks : Both Eq w.pairs lookup lookup')
    (sidecars : w.pairs sidecar sidecar') (overlays : w.pairs overlay overlay') :
    Ending.Twins w w.pairs (ownStage artifact lookup sidecar overlay dryRun s)
      (ownStage artifact lookup' sidecar' overlay' dryRun s') := by
  cases looks with
  | error hreasons =>
    subst hreasons
    exact .error (.io _) twin
  | @ok source source' sources =>
    have hcopies : Ending.Twins w w.pairs (ownCopy artifact source sidecar overlay dryRun s)
        (ownCopy artifact source' sidecar' overlay' dryRun s') :=
      ownCopy_twins twin sources sidecars overlays
    simp only [ownStage, ownArtifact_apply]
    generalize ownCopy artifact source sidecar overlay dryRun s = r at hcopies ⊢
    generalize ownCopy artifact source' sidecar' overlay' dryRun s' = r' at hcopies ⊢
    cases hcopies with
    | error hfailures htwin => exact .error hfailures htwin
    | ok hown htwin =>
      simp only [htwin.isAmiss hown (.some overlays)]
      split
      · exact .error (.missingArtifact artifact hown) htwin
      · exact .ok hown htwin

end Preparation

/-- The name of an image is read alike on both hosts: it leads the same way, or nowhere. -/
def Pairing.ReadsAlike (w : Pairing) (h h' : Host) (name : Path) : Prop :=
  w.pairs name name ∨ (h.isPresent name = false ∧ h'.isPresent name = false)

/-- Two launches that were decided alike: paths apart, they differ in the acceleration at most, and
files that are looked for by absolute paths have the same ones. -/
structure Launch.Alike (R : Path → Path → Prop) (o o' : Options) (l l' : Launch) : Prop where
  rest : l' = { l with
    bootImage := l'.bootImage, image := l'.image, overlay := o'.overlay, pcap := o'.pcap,
    kvm := l'.kvm }
  bootImage : BootImage.Alike R l.bootImage l'.bootImage
  deployedBoot : o.overlay = none → o.bootloader = none → l.bootImage = l'.bootImage
  image : R l.image l'.image
  plainImage : o.overlay = none → l.image = l'.image
  overlay : l.overlay = o.overlay
  pcap : l.pcap = o.pcap

namespace Preparation

variable {probe : Probe} {o o' : Options} {machine : String}

theorem machineOf_twins (twin : s.Twin w s') (options : o.Twin w s.host o') :
    Both (Failure.Alike w.pairs) Eq (machineOf s.host o) (machineOf s'.host o') := by
  unfold machineOf
  rw [options.machine_eq]
  cases hset : o.machine with
  | given machine => exact .ok rfl
  | detect => exact soleMachine_twins twin (options.dir hset)

theorem settle_twins (twin : s.Twin w s') (paths : w.pairs p p') :
    Both Eq (fun q q' => q = q' ∧ q.isAbsolute = true) (s.host.files.settle s.host.cwd p)
      (s'.host.files.settle s'.host.cwd p') := by
  rw [twin.files]
  refine .of_eq (twin.sameWay paths).settle fun q hq => ?_
  exact ⟨rfl, FileSystem.isAbsolute_settle hq⟩

theorem romSource_twins (twin : s.Twin w s') (options : o.Twin w s.host o')
    (known : machineOf s.host o = .ok machine) (efi : o.efi = false) (on : o.uboot = true) :
    Both Eq (fun q q' => w.pairs q q' ∧ (o.bootloader = none → q = q'))
      (romSource s.host o ⟨o.dir, machine⟩) (romSource s'.host o' ⟨o'.dir, machine⟩) := by
  unfold romSource
  rcases both_or_neither options.bootloader with
    ⟨hnone, hnone'⟩ | ⟨path, path', hgiven, hgiven', hpaths⟩
  · simp only [hnone, hnone', twin.here, twin.host]
    refine .of_eq (options.rom machine known) fun q hq => ?_
    exact ⟨w.rooted (FileSystem.isAbsolute_absolute hq), fun _ => rfl⟩
  · simp only [hgiven, hgiven']
    exact .ok ⟨hpaths efi on, by simp⟩

theorem chooseBootImage_twins (twin : s.Twin w s') (options : o.Twin w s.host o')
    (known : machineOf s.host o = .ok machine) :
    Ending.Twins w
      (fun b b' => b.Alike w.pairs b' ∧ (o.overlay = none → o.bootloader = none → b = b'))
      (chooseBootImage o ⟨o.dir, machine⟩ s) (chooseBootImage o' ⟨o'.dir, machine⟩ s') := by
  cases hefi : o.efi with
  | true =>
    rw [chooseBootImage_efi s hefi, chooseBootImage_efi s' (options.efi_eq.trans hefi)]
    exact .ok ⟨.same _, fun _ _ => rfl⟩ twin
  | false =>
    have hefi' : o'.efi = false := options.efi_eq.trans hefi
    cases hon : o.uboot with
    | false =>
      rw [chooseBootImage_kernel s hefi hon, chooseBootImage_kernel s' hefi'
        (options.uboot_eq.trans hon), chooseKernel_apply, chooseKernel_apply, options.dryRun_eq]
      have hkernel := settle_twins twin (options.kernel machine known hefi hon)
      refine (plainStage_twins twin hkernel ?_).map ?_
      · rintro q _ ⟨rfl, habsolute⟩
        exact w.rooted habsolute
      · rintro q _ ⟨rfl, -⟩
        exact ⟨.same _, fun _ _ => rfl⟩
    | true =>
      have hrom := romSource_twins twin options known hefi hon
      rw [chooseBootImage_uboot s hefi hon, chooseBootImage_uboot s' hefi'
        (options.uboot_eq.trans hon)]
      rcases both_or_neither options.overlay with
        ⟨hplain, hplain'⟩ | ⟨v, v', hgiven, hgiven', hpairs⟩
      · rw [chooseBootloader_plain s hplain, chooseBootloader_plain s' hplain', options.dryRun_eq]
        refine (plainStage_twins twin hrom And.left).map fun hpaths => ?_
        exact ⟨.bios hpaths.1, fun _ hnone => by rw [hpaths.2 hnone]⟩
      · obtain ⟨hoverlays, hsidecars, -⟩ := hpairs
        rw [chooseBootloader_overlay s hgiven, chooseBootloader_overlay s' hgiven',
          options.dryRun_eq]
        refine Ending.Twins.map
          (ownStage_twins twin (hrom.imp And.left) (hsidecars hefi) hoverlays) fun hpaths => ?_
        exact ⟨.bios hpaths, by simp [hgiven]⟩

theorem imageSource_twins {t t' : Progress} (later : t.Twin w t')
    (options : o.Twin w s.host o') (known : machineOf s.host o = .ok machine)
    (named : w.ReadsAlike t.host t'.host (.ofString o.imageName)) :
    Both Eq w.pairs (imageSource t.host o ⟨o.dir, machine⟩)
      (imageSource t'.host o' ⟨o'.dir, machine⟩) := by
  have hname : t'.host.isPresent (.ofString o.imageName)
      = t.host.isPresent (.ofString o.imageName) := by
    rcases named with hpair | ⟨habsent, habsent'⟩
    · exact later.isPresent hpair
    · rw [habsent, habsent']
  cases hpresent : t.host.isPresent (.ofString o.imageName) with
  | false =>
    rw [imageSource_of_absent hpresent, imageSource_of_absent (o := o')
      (by rw [options.imageName_eq, hname, hpresent]), options.imageName_eq, options.uboot_eq]
    have habsent : w.files.isPresent w.cwd (.ofString o.imageName) = false := by
      rw [Bool.eq_false_iff]
      intro hbefore
      have hthen := later.grown.isPresent hbefore
      rw [← later.here] at hthen
      cases hpresent.symm.trans hthen
    exact .ok (options.image machine known habsent)
  | true =>
    rw [imageSource_of_present hpresent, imageSource_of_present (o := o')
      (by rw [options.imageName_eq, hname, hpresent]), options.imageName_eq, later.files]
    rcases named with hpair | ⟨habsent, -⟩
    · refine .of_eq (later.sameWay hpair).canonical fun q hq => ?_
      exact w.rooted (FileSystem.isAbsolute_canonical hq)
    · cases hpresent.symm.trans habsent

theorem chooseImage_twins {t t' : Progress} (later : t.Twin w t') (options : o.Twin w s.host o')
    (known : machineOf s.host o = .ok machine)
    (named : w.ReadsAlike t.host t'.host (.ofString o.imageName)) :
    Ending.Twins w (fun q q' => w.pairs q q' ∧ (o.overlay = none → q = q'))
      (chooseImage o ⟨o.dir, machine⟩ t) (chooseImage o' ⟨o'.dir, machine⟩ t') := by
  have hsources := imageSource_twins later options known named
  rcases both_or_neither options.overlay with ⟨hplain, hplain'⟩ | ⟨v, v', hgiven, hgiven', hpairs⟩
  · rw [chooseImage_plain t hplain, chooseImage_plain t' hplain', options.dryRun_eq]
    have hlooks : Both Eq (fun q q' => q = q' ∧ q.isAbsolute = true)
        (imageSource t.host o ⟨o.dir, machine⟩ >>= t.host.files.settle t.host.cwd)
        (imageSource t'.host o' ⟨o'.dir, machine⟩ >>= t'.host.files.settle t'.host.cwd) :=
      hsources.bind (settle_twins later)
    refine (plainStage_twins later hlooks ?_).imp ?_
    · rintro q _ ⟨rfl, habsolute⟩
      exact w.rooted habsolute
    · rintro q _ ⟨rfl, habsolute⟩
      exact ⟨w.rooted habsolute, fun _ => rfl⟩
  · obtain ⟨hoverlays, -, hsidecars⟩ := hpairs
    rw [chooseImage_overlay t hgiven, chooseImage_overlay t' hgiven', options.dryRun_eq]
    refine (ownStage_twins later hsources hsidecars hoverlays).imp fun hpaths => ?_
    exact ⟨hpaths, by simp [hgiven]⟩

end Preparation

namespace Progress.Twin

theorem drawn {h : Host} {o o' : Options} (twin : s.Twin w s') (options : o.Twin w h o') :
    (s.drawn o).Twin w (s'.drawn o') := by
  have haddresses : o'.addresses s'.host.dice = o.addresses s.host.dice := by
    rw [options.rest, twin.host]
    rfl
  refine ⟨twin.here, ?_, twin.grown, twin.printed⟩
  rw [Progress.drawn_host, Progress.drawn_host, haddresses, twin.host]
  rfl

theorem asked {o o' : Options} (twin : s.Twin w s') (probe : Probe) :
    (s.asked probe o).Twin w (s'.asked probe o') := by
  constructor
  · rw [Progress.asked_host, twin.here]
  · rw [Progress.asked_host, Progress.asked_host, twin.host]
  · rw [Progress.asked_host]
    exact twin.grown
  · rw [Progress.asked_printed, Progress.asked_printed]
    exact twin.printed

end Progress.Twin

namespace Preparation

variable {probe : Probe} {o o' : Options} {machine : String}

theorem complete_twins {h : Host} {bootImage bootImage' : BootImage} {image image' : Path}
    (probe : Probe) (machine : String) (twin : s.Twin w s') (options : o.Twin w h o')
    (boot : bootImage.Alike w.pairs bootImage' ∧
      (o.overlay = none → o.bootloader = none → bootImage = bootImage'))
    (disk : w.pairs image image' ∧ (o.overlay = none → image = image')) :
    Ending.Twins w (Launch.Alike w.pairs o o') (complete probe o machine bootImage image s)
      (complete probe o' machine bootImage' image' s') := by
  have hheld : s'.host.held = s.host.held := by rw [twin.host]; rfl
  have hdice : s'.host.dice = s.host.dice := by rw [twin.host]; rfl
  have hdrawn := twin.drawn options
  rw [complete_apply, complete_apply, hheld, hdice]
  cases hports : Port.pair s.host.held with
  | error e =>
    obtain ⟨start, stop, rfl⟩ := Port.pair_error hports
    exact .error (.portExhausted start stop) (hdrawn.logged _ _)
  | ok ports =>
    refine .ok ⟨?_, boot.1, boot.2, disk.1, disk.2, rfl, rfl⟩
      (((hdrawn.logged _ _).asked probe).logged _ _)
    rw [options.rest]
    rfl

/-- What is there when the boot image has been chosen is there at the end. -/
theorem isPresent_at_end {t : Progress} {bootImage : BootImage}
    (fits : o.uboot = true ∨ o.overlay = none) (known : machineOf s.host o = .ok machine)
    (boot : chooseBootImage o ⟨o.dir, machine⟩ s = .ok bootImage t)
    (present : t.host.isPresent p = true) :
    (Ending.progress (prepare probe o s)).host.isPresent p = true := by
  have hlater : (Ending.progress (chooseImage o ⟨o.dir, machine⟩ t)).host.isPresent p = true := by
    rcases chooseImage_host (s := t) (o := o) ⟨o.dir, machine⟩ with hsame | hmade
    · rwa [hsame]
    · obtain ⟨overlay, place, file, files, hcopy, hhost⟩ := hmade
      rw [hhost]
      exact hcopy.grows.isPresent present
  rw [prepare_apply s fits, known]
  simp only [boot]
  cases hdisk : chooseImage o ⟨o.dir, machine⟩ t with
  | error e u =>
    rw [hdisk] at hlater
    exact hlater
  | ok image u =>
    rw [hdisk] at hlater
    simp only [Host.isPresent, complete_host]
    exact hlater

theorem readsAlike_of_end {t t' : Progress} {h h' : Host} {name : Path}
    (named : w.ReadsAlike h h' name)
    (kept : t.host.isPresent name = true → h.isPresent name = true)
    (kept' : t'.host.isPresent name = true → h'.isPresent name = true) :
    w.ReadsAlike t.host t'.host name := by
  rcases named with hpair | ⟨habsent, habsent'⟩
  · exact .inl hpair
  · refine .inr ⟨?_, ?_⟩
    · exact Bool.eq_false_iff.2 fun hpresent => by simp [kept hpresent] at habsent
    · exact Bool.eq_false_iff.2 fun hpresent => by simp [kept' hpresent] at habsent'

/-- Preparations whose paths come in pairs that lead the same way end alike. -/
theorem prepare_twins (probe : Probe) (twin : s.Twin w s') (options : o.Twin w s.host o')
    (named : w.ReadsAlike (Ending.progress (prepare probe o s)).host
      (Ending.progress (prepare probe o' s')).host (.ofString o.imageName)) :
    Ending.Twins w (Launch.Alike w.pairs o o') (prepare probe o s) (prepare probe o' s') := by
  by_cases hfits : o.uboot = true ∨ o.overlay = none
  · have hfits' : o'.uboot = true ∨ o'.overlay = none := by
      rwa [options.uboot_eq, options.plain_iff]
    have hmachines := machineOf_twins twin options
    cases hknown : machineOf s.host o with
    | error e =>
      rw [hknown] at hmachines
      obtain ⟨e', hknown', hfailures⟩ := hmachines.of_error
      rw [prepare_apply s hfits, prepare_apply s' hfits', hknown, hknown']
      exact .error hfailures twin
    | ok machine =>
      rw [hknown] at hmachines
      obtain ⟨_, hknown', rfl⟩ := hmachines.of_ok
      have hboots := chooseBootImage_twins twin options hknown
      cases hboot : chooseBootImage o ⟨o.dir, machine⟩ s with
      | error e t =>
        rw [hboot] at hboots
        obtain ⟨e', t', hboot', hfailures, hlater⟩ := hboots.of_error
        rw [prepare_apply s hfits, prepare_apply s' hfits', hknown, hknown']
        simp only [hboot, hboot']
        exact .error hfailures hlater
      | ok bootImage t =>
        rw [hboot] at hboots
        obtain ⟨bootImage', t', hboot', hbootImages, hlater⟩ := hboots.of_ok
        have hnamed : w.ReadsAlike t.host t'.host (.ofString o.imageName) :=
          readsAlike_of_end named (isPresent_at_end hfits hknown hboot)
            (isPresent_at_end hfits' hknown' hboot')
        have hdisks := chooseImage_twins hlater options hknown hnamed
        rw [prepare_apply s hfits, prepare_apply s' hfits', hknown, hknown']
        simp only [hboot, hboot']
        cases hdisk : chooseImage o ⟨o.dir, machine⟩ t with
        | error e u =>
          rw [hdisk] at hdisks
          obtain ⟨e', u', hdisk', hfailures, hlast⟩ := hdisks.of_error
          simp only [hdisk']
          exact .error hfailures hlast
        | ok image u =>
          rw [hdisk] at hdisks
          obtain ⟨image', u', hdisk', himages, hlast⟩ := hdisks.of_ok
          simp only [hdisk']
          exact complete_twins probe machine hlast options hbootImages himages
  · rw [not_or, Bool.not_eq_true, ← Ne, ← Option.isSome_iff_ne_none] at hfits
    have hgiven' : o'.overlay.isSome = true := by
      rw [Option.isSome_iff_ne_none, Ne, options.plain_iff, ← Ne, ← Option.isSome_iff_ne_none]
      exact hfits.2
    rw [prepare_refused s hfits.1 hfits.2,
      prepare_refused s' (options.uboot_eq.trans hfits.1) hgiven']
    exact .error (.config (.same _)) twin

end Preparation

/-- Two whole runs do the same to the files and end alike. -/
structure Outcome.Twins (w : Pairing) (o o' : Options) (r r' : Outcome Launch) : Prop where
  result : Both (Failure.Alike w.pairs) (Launch.Alike w.pairs o o') r.result r'.result
  printed : List.Forall₂ (PlannedCopy.Alike w.pairs) r.journal.printed r'.journal.printed
  files : r'.host.files = r.host.files
  grown : w.files.Grows r.host.files

namespace Preparation

variable {o o' : Options}

theorem run_twins (probe : Probe) {h : Host} (here : h.cwd = w.cwd) (files : w.files = h.files)
    (options : o.Twin w h o')
    (named : w.ReadsAlike (h.run (prepare probe o)).host
      ((h.within w.cwd').run (prepare probe o')).host (.ofString o.imageName)) :
    Outcome.Twins w o o' (h.run (prepare probe o)) ((h.within w.cwd').run (prepare probe o')) := by
  have hbegin : h.begin.Twin w (h.within w.cwd').begin := ⟨here, rfl, files ▸ .refl, .nil⟩
  rw [Host.run_eq, Host.run_eq, Ending.outcome_host, Ending.outcome_host] at named
  rw [Host.run_eq, Host.run_eq]
  have htwins := prepare_twins probe hbegin options named
  generalize prepare probe o h.begin = r at htwins ⊢
  generalize prepare probe o' (h.within w.cwd').begin = r' at htwins ⊢
  cases htwins with
  | ok hlaunches htwin => exact ⟨.ok hlaunches, htwin.printed, htwin.files, htwin.grown⟩
  | error hfailures htwin => exact ⟨.error hfailures, htwin.printed, htwin.files, htwin.grown⟩

end Preparation

end LaunchPlan
