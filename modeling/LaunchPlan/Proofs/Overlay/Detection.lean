import LaunchPlan.Proofs.Overlay.FirstUse
import LaunchPlan.Proofs.Preparation.Failure
import LaunchPlan.Proofs.Preparation.Machine

/-!
The machine that is found again after a run. It is the name of the only entry of a directory, and a
first use of an overlay can add entries to that directory. Main statements: `soleMachine_later`,
what becomes of a machine that was found once files are added, and `detected_again_iff`, a run
leaves its machine to be found exactly if its copies lie elsewhere.
-/

namespace LaunchPlan

namespace FileSystem

variable {before after : FileSystem} {directory : Location} {name : Name}

theorem Grows.mem_children (grows : before.Grows after) (h : name ∈ before.children directory) :
    name ∈ after.children directory := by
  obtain ⟨hne, hsome⟩ := mem_children_iff.1 h
  obtain ⟨entry, hentry⟩ := Option.isSome_iff_exists.1 hsome
  exact mem_children_iff.2 ⟨hne, by simp [grows.get? hentry]⟩

/-- A directory lists a name that it did not list before. -/
def Gains (before after : FileSystem) (directory : Location) : Prop :=
  ∃ name ∈ after.children directory, name ∉ before.children directory

instance : Decidable (Gains before after directory) :=
  inferInstanceAs (Decidable (∃ name ∈ after.children directory, _))

theorem Grows.children_eq_singleton_iff (grows : before.Grows after)
    (sole : before.children directory = [name]) :
    after.children directory = [name] ↔ ¬Gains before after directory := by
  rw [FileSystem.children_eq_singleton_iff]
  constructor
  · rintro hall ⟨other, hafter, hbefore⟩
    rw [sole, List.mem_singleton, ← hall] at hbefore
    exact hbefore hafter
  · intro hnone other
    rw [← List.mem_singleton, ← sole]
    constructor
    · intro hafter
      by_contra hbefore
      exact hnone ⟨other, hafter, hbefore⟩
    · exact grows.mem_children

end FileSystem

namespace Preparation

variable {probe : Probe} {o : Options} {h : Host} {dir : Path} {directory : Location}
  {machine : String}

/-- A machine that was found is found again after files were added, if its directory has gained none
of them. Otherwise the directory has become ambiguous. -/
theorem soleMachine_later {later : Host} (cwd : later.cwd = h.cwd)
    (grows : h.files.Grows later.files) (found : h.files.follow h.cwd dir = .found directory)
    (known : soleMachine h dir = .ok machine) :
    soleMachine later dir =
      if h.files.Gains later.files directory then .error (.config (.machineAmbiguous dir))
      else .ok machine := by
  cases soleMachine_eq_iff.1 known with
  | @found place name _ leads there listable sole text =>
    obtain rfl : directory = place := Walk.found.inj (found.symm.trans leads)
    have hfound : later.files.follow later.cwd dir = .found directory := by
      rw [cwd]
      exact grows.follow_found found
    have hlistable : later.files.bar? directory = none := (grows.bar? directory).trans listable
    rw [FileSystem.isSoleEntry_iff] at sole
    have hsingle := grows.children_eq_singleton_iff sole
    rw [soleMachine_of_found hfound (grows.get? there), hlistable]
    by_cases hgains : h.files.Gains later.files directory
    · rw [if_pos hgains]
      simp only
      split
      · next other hother =>
        -- The name that was there is still listed, so the only name is that one.
        have hlisted : name ∈ later.files.children directory := grows.mem_children (by simp [sole])
        rw [hother, List.mem_singleton] at hlisted
        rw [← hlisted] at hother
        exact absurd hgains (hsingle.1 hother)
      · rfl
    · rw [if_neg hgains, hsingle.2 hgains]
      simp only [text]

/-- A name that a directory gains in a run is that of one of the overlay's own copies. -/
theorem Stages.gained {s t u v : Progress} {launch : Launch} {name : Name}
    (stages : Stages probe o s t launch u v)
    (added : name ∈ t.host.files.children directory)
    (absent : name ∉ s.host.files.children directory) :
    ∃ overlay, o.overlay = some overlay ∧ s.host.isPresent overlay = false ∧
      (o.efi = false ∧
          t.host.files.follow s.host.cwd (romSidecar overlay) = .found (name :: directory) ∨
        t.host.files.follow s.host.cwd (imageSidecar overlay) = .found (name :: directory)) := by
  obtain ⟨hne, hsome⟩ := FileSystem.mem_children_iff.1 added
  obtain ⟨file, hfile⟩ := Option.isSome_iff_exists.1 hsome
  have hgap : s.host.files.get? (name :: directory) = none := by
    by_contra hentry
    exact absent (FileSystem.mem_children_iff.2 ⟨hne, Option.isSome_iff_ne_none.2 hentry⟩)
  cases hmid : u.host.files.get? (name :: directory) with
  | some entry =>
    obtain ⟨-, hefi, machine, overlay, -, hcopy⟩ := stages.rom.made_of_new hgap hmid
    obtain ⟨source, -, hcopied⟩ := hcopy.copied
    exact ⟨overlay, hcopy.given, hcopy.fresh,
      .inl ⟨hefi, stages.image.grows.follow_found hcopied.follow_target⟩⟩
  | none =>
    obtain ⟨-, machine, overlay, -, hcopy⟩ := stages.image.made_of_new hmid hfile
    obtain ⟨source, -, hcopied⟩ := hcopy.copied
    have hfresh : s.host.isPresent overlay = false := by
      by_contra hpresent
      rw [Bool.not_eq_false] at hpresent
      have hstill := stages.rom.grows.isPresent hpresent
      exact absurd (hcopy.fresh.symm.trans hstill) (by simp)
    exact ⟨overlay, hcopy.given, hfresh, .inr hcopied.follow_target⟩

/-- A run that found its machine leaves it to be found again exactly if the directory it was found
in has gained no entry. If it has, the machine can no longer be told, and the next run with the same
options says so. All that it can have gained are the overlay's own copies. -/
theorem detected_again_iff (probe : Probe) (o : Options) (h : Host) {launch : Launch}
    (detected : o.machine = .detect) (decided : (h.run (prepare probe o)).result = .ok launch) :
    let after := (h.run (prepare probe o)).host
    ∃ directory, h.files.follow h.cwd o.dir = .found directory ∧
      (soleMachine after o.dir = .ok launch.machine ↔ ¬h.files.Gains after.files directory) ∧
      (∀ (again : Probe) (later : Host), later.files = after.files → later.cwd = after.cwd →
        ((later.run (prepare again o)).result = .error (.config (.machineAmbiguous o.dir)) ↔
          h.files.Gains after.files directory)) ∧
      ∀ name ∈ after.files.children directory, name ∉ h.files.children directory →
        ∃ overlay, o.overlay = some overlay ∧ h.isPresent overlay = false ∧
          (o.efi = false ∧
              after.files.follow h.cwd (romSidecar overlay) = .found (name :: directory) ∨
            after.files.follow h.cwd (imageSidecar overlay) = .found (name :: directory)) := by
  intro after
  obtain ⟨t, hend, hrun⟩ := Host.run_ok decided
  obtain ⟨u, v, stages⟩ := prepare_stages hend
  have hafter : after = t.host := congrArg Outcome.host hrun
  have hknown : soleMachine h o.dir = .ok launch.machine := by
    have hmachine : machineOf h o = .ok launch.machine := stages.known
    rwa [machineOf, detected] at hmachine
  obtain ⟨directory, hfound⟩ := found_of_soleMachine hknown
  have hcwd : after.cwd = h.cwd := by
    rw [hafter, stages.host_eq, stages.imaged]
    rfl
  have hgrows : h.files.Grows after.files := by
    rw [hafter]
    exact stages.grows
  refine ⟨directory, hfound, ?_, ?_, ?_⟩
  · rw [soleMachine_later hcwd hgrows hfound hknown]
    split
    · next hgains => simp [hgains]
    · next hgains => simp [hgains]
  · intro again later hfiles hlater
    rw [← hfiles] at hgrows ⊢
    rw [prepare_config_iff, IsMisconfigured, if_pos stages.fits, machineOf, detected]
    simp only
    rw [soleMachine_later (hlater.trans hcwd) hgrows hfound hknown]
    split
    · next hgains => simp [hgains]
    · next hgains => simp [hgains]
  · rw [hafter]
    exact fun name => stages.gained

end Preparation

/-- The sample options, with the machine left to be found. -/
def Sample.detecting : Options := { options with machine := .detect }

namespace Preparation

/-- Copies beside the images directory leave it as it was. -/
theorem detected_again_sample :
    let run := Sample.complete.run (prepare (.known false) Sample.detecting)
    run.result = .ok (Sample.detecting.launch "m" (.bios (.ofString "/v.u-boot.rom"))
        (.ofString "/v.img") (⟨0x52, 0x54, 0, 0, 0, 1⟩, none) 8990 2222 false) ∧
      soleMachine run.host (.ofString "/d") = .ok "m" := by
  have hdecided : (Sample.complete.run (prepare (.known false) Sample.detecting)).result
      = .ok (Sample.detecting.launch "m" (.bios (.ofString "/v.u-boot.rom")) (.ofString "/v.img")
        (⟨0x52, 0x54, 0, 0, 0, 1⟩, none) 8990 2222 false) := by
    decide +kernel
  obtain ⟨directory, hfound, hsame, -⟩ := detected_again_iff (.known false) Sample.detecting
    Sample.complete rfl hdecided
  have hplace : Sample.complete.files.follow Sample.complete.cwd (.ofString "/d")
      = .found (Sample.place ["d"]) := by
    decide +kernel
  obtain rfl : Sample.place ["d"] = directory := Walk.found.inj (hplace.symm.trans hfound)
  exact ⟨hdecided, hsame.2 (by decide +kernel)⟩

/-- Copies in the images directory leave it ambiguous. -/
theorem detected_only_once :
    ¬∀ (probe : Probe) (o : Options) (h : Host) (launch : Launch),
      o.machine = .detect → o.dryRun = false → (h.run (prepare probe o)).result = .ok launch →
      soleMachine (h.run (prepare probe o)).host o.dir = .ok launch.machine := by
  intro hclaim
  have hdecided : (Sample.complete.run (prepare (.known false)
        { Sample.detecting with overlay := some (.ofString "/d/v") })).result
      = .ok ({ Sample.detecting with overlay := some (.ofString "/d/v") }.launch "m"
        (.bios (.ofString "/d/v.u-boot.rom")) (.ofString "/d/v.img")
        (⟨0x52, 0x54, 0, 0, 0, 1⟩, none) 8990 2222 false) := by
    decide +kernel
  have hagain := hclaim _ _ _ _ rfl rfl hdecided
  revert hagain
  decide +kernel

end Preparation

end LaunchPlan
