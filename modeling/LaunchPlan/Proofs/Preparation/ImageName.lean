import LaunchPlan.Proofs.FileSystem.Settled
import LaunchPlan.Proofs.Overlay.FirstUse
import LaunchPlan.Proofs.Preparation.Requirements

/-!
What a launch without an overlay runs from. Main statement: `image_name_overrides`, the name of the
recipe stands for the entry that it leads to as a path, of whatever kind that is, and for the
deployed image only if it leads to none.
-/

namespace LaunchPlan

namespace Preparation

variable {probe : Probe} {o : Options} {s t : Progress} {launch : Launch}

theorem plainStage_ok {artifact : Artifact} {lookup : Except Fault Path} {dryRun : Bool}
    {path : Path} (h : plainStage artifact lookup dryRun s = .ok path t) : lookup = .ok path := by
  cases lookup with
  | error fault => cases h
  | ok found =>
    simp only [plainStage] at h
    split at h
    · cases h
    · cases h
      rfl

/-- Without an overlay a launch runs from what the image's path settles to. -/
theorem prepare_image (plain : o.overlay = none) (h : prepare probe o s = .ok launch t) :
    (imageSource s.host o ⟨o.dir, launch.machine⟩ >>= s.host.files.settle s.host.cwd)
      = .ok launch.image := by
  obtain ⟨u, v, stages⟩ := prepare_stages h
  have hdisk := stages.disk
  rw [chooseImage_plain u plain, (stages.unchanged plain).1] at hdisk
  exact plainStage_ok hdisk

/-- The recipe's name is that of an image to run from if it leads to anything, a file or not, and
else it stands for the image that was deployed. -/
theorem image_name_overrides (probe : Probe) (o : Options) (h : Host) {launch : Launch}
    (plain : o.overlay = none) (decided : (h.run (prepare probe o)).result = .ok launch) :
    (h.isPresent (.ofString o.imageName) = false →
      h.files.settle h.cwd (recipePath o launch.machine) = .ok launch.image) ∧
    ∀ place, h.files.follow h.cwd (.ofString o.imageName) = .found place →
      place.path? = some launch.image := by
  obtain ⟨t, hend, -⟩ := Host.run_ok decided
  have himage := prepare_image plain hend
  rw [show h.begin.host = h from rfl] at himage
  refine ⟨?deployed, ?named⟩
  case deployed =>
    intro habsent
    rwa [imageSource_of_absent habsent] at himage
  case named =>
    intro place hleads
    have hpresent : h.isPresent (.ofString o.imageName) = true :=
      FileSystem.isPresent_iff.2 ⟨place, hleads, FileSystem.follow_found hleads⟩
    rw [imageSource_of_present hpresent] at himage
    cases hnamed : h.files.canonical h.cwd (.ofString o.imageName) with
    | error fault =>
      rw [hnamed] at himage
      cases himage
    | ok named =>
      have hsettled : h.files.settle h.cwd named = .ok launch.image := by rwa [hnamed] at himage
      rw [FileSystem.settle_canonical hnamed hleads h.cwd, Except.ok.injEq] at hsettled
      rw [← hsettled]
      exact (FileSystem.path_of_canonical hnamed hleads).2

end Preparation

namespace Sample

/-- The sample options without an overlay. -/
def plain : Options := { options with overlay := none }

/-- A host whose working directory has a directory with the name of the recipe. -/
def overshadowed : Host :=
  host (files [rom, image, (place ["i"], .directory)] (by decide +kernel))

end Sample

namespace Preparation

theorem overshadowed_decided :
    (Sample.overshadowed.run (prepare (.known false) Sample.plain)).result
      = .ok (Sample.plain.launch "m" (.bios (.ofString "/d/m/u-boot-qemux86-64.rom"))
        (.ofString "/i") (⟨0x52, 0x54, 0, 0, 0, 1⟩, none) 8990 2222 false) := by
  decide +kernel

theorem image_name_overrides_sample :
    ∃ launch, (Sample.overshadowed.run (prepare (.known false) Sample.plain)).result = .ok launch ∧
      (Sample.place ["i"]).path? = some launch.image := by
  obtain ⟨-, hnamed⟩ := image_name_overrides (.known false) Sample.plain Sample.overshadowed
    rfl overshadowed_decided
  exact ⟨_, overshadowed_decided, hnamed (Sample.place ["i"]) (by decide +kernel)⟩

/-- A directory becomes the disk image, although the image that the recipe's name stands for has
been deployed. -/
theorem directory_becomes_image :
    ∃ launch, (Sample.overshadowed.run (prepare (.known false) Sample.plain)).result = .ok launch ∧
      launch.image = .ofString "/i" ∧
      Sample.overshadowed.files.get? (Sample.place ["i"]) = some .directory ∧
      Sample.overshadowed.files.settle [] (recipePath Sample.plain launch.machine)
        = .ok (.ofString "/d/m/i-m.wic") :=
  ⟨_, overshadowed_decided, rfl, by decide +kernel, by decide +kernel⟩

end Preparation

end LaunchPlan
