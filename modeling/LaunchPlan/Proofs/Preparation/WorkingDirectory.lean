import LaunchPlan.Proofs.Options.Load
import LaunchPlan.Proofs.Preparation.Twins

/-!
What depends on the working directory. Main statements: `prepare_ignores_cwd`, with absolute paths
only the answer of the probe does, unless the name of the image is that of a path, and
`cwd_chooses_probe`, that answer may.
-/

namespace LaunchPlan

variable {R : Path → Path → Prop}

/-! What is alike with equal paths is equal. -/

theorem Failure.Alike.eq {e e' : Failure} (alike : e.Alike R e') (same : ∀ p p', R p p' → p = p') :
    e = e' := by
  cases alike with
  | config hfaults =>
    cases hfaults with
    | same => rfl
    | imagesDirectoryMissing hdirs => rw [same _ _ hdirs]
    | machineAmbiguous hdirs => rw [same _ _ hdirs]
  | missingArtifact _ hpaths => rw [same _ _ hpaths]
  | portExhausted => rfl
  | copy hsources htargets => rw [same _ _ hsources, same _ _ htargets]
  | io => rfl

theorem BootImage.Alike.eq {b b' : BootImage} (alike : b.Alike R b')
    (same : ∀ p p', R p p' → p = p') : b = b' := by
  cases alike with
  | same => rfl
  | bios hpaths => rw [same _ _ hpaths]

theorem PlannedCopy.Alike.eq {c c' : PlannedCopy} (alike : c.Alike R c')
    (same : ∀ p p', R p p' → p = p') : c = c' := by
  obtain ⟨source, target⟩ := c
  obtain ⟨source', target'⟩ := c'
  have hsource : source = source' := same _ _ alike.source
  have htarget : target = target' := same _ _ alike.target
  rw [hsource, htarget]

theorem Launch.Alike.eq {o : Options} {l l' : Launch} (alike : l.Alike R o o l')
    (same : ∀ p p', R p p' → p = p') : l' = { l with kvm := l'.kvm } := by
  rw [alike.rest, ← alike.bootImage.eq same, ← same _ _ alike.image, ← alike.overlay, ← alike.pcap]

/-- Absolute paths, each taken for itself in two working directories. -/
def Pairing.ofRooted (files : FileSystem) (cwd cwd' : Location) : Pairing where
  files := files
  cwd := cwd
  cwd' := cwd'
  pairs p p' := p = p' ∧ p.isAbsolute = true
  rooted h := ⟨rfl, h⟩
  sameWay := by
    rintro p _ ⟨rfl, h⟩
    exact .rooted h

theorem Path.isAbsolute_deployed {dir : Path} (rooted : dir.isAbsolute = true) (machine : String)
    (file : Path) : ((Deployment.machineDirectory ⟨dir, machine⟩).join file).isAbsolute = true :=
  isAbsolute_join (isAbsolute_join rooted)

theorem Options.IsRooted.twin {o : Options} (rooted : o.IsRooted) (h : Host) (cwd' : Location) :
    o.Twin (.ofRooted h.files h.cwd cwd') h o where
  rest := rfl
  dir _ := ⟨rfl, rooted.dir⟩
  bootloader := by
    cases hgiven : o.bootloader with
    | none => exact .none
    | some path => exact .some fun _ _ => ⟨rfl, rooted.bootloader path hgiven⟩
  overlay := by
    cases hgiven : o.overlay with
    | none => exact .none
    | some overlay =>
      have habsolute := rooted.overlay overlay hgiven
      refine .some ⟨⟨rfl, habsolute⟩, fun _ => ⟨rfl, ?_⟩, ⟨rfl, ?_⟩⟩
      · exact (Path.isAbsolute_withSuffix overlay (by decide)).trans habsolute
      · exact (Path.isAbsolute_withSuffix overlay (by decide)).trans habsolute
  rom machine _ := by
    have hsame : h.files.SameWay h.cwd cwd' (Deployment.bootloader ⟨o.dir, machine⟩)
        (Deployment.bootloader ⟨o.dir, machine⟩) :=
      .rooted (Path.isAbsolute_deployed rooted.dir machine _)
    exact hsame.absolute
  kernel machine _ _ _ := ⟨rfl, Path.isAbsolute_deployed rooted.dir machine _⟩
  image machine _ _ := ⟨rfl, Path.isAbsolute_deployed rooted.dir machine _⟩

theorem Pairing.eq_of_rooted {files : FileSystem} {cwd cwd' : Location} (p p' : Path)
    (h : (Pairing.ofRooted files cwd cwd').pairs p p') : p = p' := h.1

theorem Outcome.Twins.printed_eq {files : FileSystem} {cwd cwd' : Location} {o o' : Options}
    {r r' : Outcome Launch} (twins : Outcome.Twins (.ofRooted files cwd cwd') o o' r r') :
    r'.journal.printed = r.journal.printed := by
  have hequal : List.Forall₂ (· = ·) r.journal.printed r'.journal.printed :=
    twins.printed.imp fun _ _ hcopies => hcopies.eq Pairing.eq_of_rooted
  rw [List.forall₂_eq_eq_eq] at hequal
  exact hequal.symm

namespace Preparation

/-- Options from an absolute path, and others with absolute paths, come to the same in every working
directory, unless the name of the image is that of a path there or the probe answers otherwise. -/
theorem prepare_ignores_cwd (probe : Probe) (o : Options) (h : Host) (cwd' : Location)
    (origin : o.IsRooted ∨ ∃ source path, path.isAbsolute = true ∧
      Options.load source path = .ok o)
    (named : (Path.ofString o.imageName).isAbsolute = true ∨
      (h.run (prepare probe o)).host.isPresent (.ofString o.imageName) = false ∧
        ((h.within cwd').run (prepare probe o)).host.isPresent (.ofString o.imageName)
          = false) :
    let here := h.run (prepare probe o)
    let there := (h.within cwd').run (prepare probe o)
    o.IsRooted ∧
      there.result
        = here.result.map (fun launch => { launch with kvm := o.kvmOn probe there.host }) ∧
      (there.result = here.result ↔ ∀ launch, here.result = .ok launch →
        o.kvmOn probe there.host = o.kvmOn probe here.host) ∧
      there.journal.printed = here.journal.printed ∧ there.host.files = here.host.files := by
  intro here there
  have hrooted : o.IsRooted := by
    rcases origin with hrooted | ⟨source, path, habsolute, hloaded⟩
    · exact hrooted
    · exact Options.isRooted_load habsolute hloaded
  have htwins : Outcome.Twins (.ofRooted h.files h.cwd cwd') o o here there :=
    run_twins probe rfl rfl (hrooted.twin h cwd')
      (named.imp_left fun habsolute => ⟨rfl, habsolute⟩)
  have hboth := htwins.result
  have hresult : there.result
      = here.result.map fun launch => { launch with kvm := o.kvmOn probe there.host } := by
    cases hhere : here.result with
    | error e =>
      rw [hhere] at hboth
      obtain ⟨e', hthere, hfailures⟩ := hboth.of_error
      rw [hthere, ← hfailures.eq Pairing.eq_of_rooted]
      rfl
    | ok launch =>
      rw [hhere] at hboth
      obtain ⟨launch', hthere, hlaunches⟩ := hboth.of_ok
      rw [hthere, ← run_kvm hthere]
      exact congrArg Except.ok (hlaunches.eq Pairing.eq_of_rooted)
  refine ⟨hrooted, hresult, ?_, htwins.printed_eq, htwins.files⟩
  rw [hresult]
  cases hhere : here.result with
  | error e =>
    refine ⟨fun _ _ hlaunch => ?_, fun _ => rfl⟩
    cases hlaunch
  | ok launch =>
    have hkvm : launch.kvm = o.kvmOn probe here.host := run_kvm hhere
    constructor
    · intro hsame _ _
      exact (congrArg Launch.kvm (Except.ok.inj hsame)).trans hkvm
    · intro halike
      rw [halike launch rfl, ← hkvm]
      rfl

end Preparation

namespace Sample

/-- A host that looks for its programs in the working directory. -/
def roaming : Host :=
  { host (files [rom, image, (place ["d", "kvm-ok"], .file (Text.encode "#!/bin/sh") true)]
      (by decide +kernel)) with
    searchPath := some [.ofString "."] }

theorem options_isRooted : options.IsRooted := by
  refine ⟨by decide, fun path hpath => ?_, fun path hpath => ?_⟩
  · cases hpath
  · cases hpath
    decide

end Sample

namespace Preparation

/-- A first use of an overlay from the root and from the deployment. -/
theorem prepare_ignores_cwd_sample :
    let here := Sample.complete.run (prepare (.known false) Sample.options)
    let there :=
      (Sample.complete.within (Sample.place ["d"])).run (prepare (.known false) Sample.options)
    there.result = here.result ∧ there.journal.printed = here.journal.printed ∧
      there.host.files = here.host.files := by
  have hgiven : Sample.options.kvm = .given false := rfl
  obtain ⟨-, -, hresults, hprinted, hfiles⟩ :=
    prepare_ignores_cwd (.known false) Sample.options Sample.complete (Sample.place ["d"])
      (.inl Sample.options_isRooted) (.inr ⟨by decide +kernel, by decide +kernel⟩)
  refine ⟨hresults.2 fun _ _ => ?_, hprinted, hfiles⟩
  rw [Options.kvmOn_of_given hgiven, Options.kvmOn_of_given hgiven]

/-- With a relative search path, it depends on the working directory which program is asked. -/
theorem cwd_chooses_probe :
    ¬∀ (probe : Probe) (o : Options) (h : Host) (cwd' : Location), o.IsRooted →
      h.files.isStanding h.cwd = true → h.files.isStanding cwd' = true →
      (h.run (prepare probe o)).host.isPresent (.ofString o.imageName) = false →
      ((h.within cwd').run (prepare probe o)).host.isPresent (.ofString o.imageName) = false →
      ((h.within cwd').run (prepare probe o)).result = (h.run (prepare probe o)).result := by
  intro hclaim
  have hrooted : Sample.asking.IsRooted :=
    ⟨Sample.options_isRooted.dir, Sample.options_isRooted.bootloader,
      Sample.options_isRooted.overlay⟩
  have hresults := hclaim .program Sample.asking Sample.roaming (Sample.place ["d"]) hrooted
    (by decide +kernel) (by decide +kernel) (by decide +kernel) (by decide +kernel)
  revert hresults
  decide +kernel

end Preparation

end LaunchPlan
