import LaunchPlan.FileSystem.Copy
import LaunchPlan.Preparation.Basic

/-!
The overlay's own copies of what it was made from. They are made at the overlay's first use, or in
a dry run announced, and taken as they are from then on.
-/

namespace LaunchPlan.Preparation

/-- A path is absent, and nothing excuses that: a dry run does, as long as the overlay is not
there. -/
def isAmiss (h : Host) (path : Path) (overlay : Option Path) (dryRun : Bool) : Bool :=
  !h.isPresent path && (!dryRun || overlay.any h.isPresent)

/-- The last check of the path of an artifact. -/
def requirePresent (artifact : Artifact) (path : Path) (overlay : Option Path) (dryRun : Bool) :
    Preparation Unit := do
  if isAmiss (← host) path overlay dryRun then throw (.missingArtifact artifact path)

/-- The overlay's own copy of an artifact, made from `source` at the overlay's first use. Once the
overlay is there its copies are taken as they are, and so is a copy that is there already. -/
def ownCopy (artifact : Artifact) (source sidecar overlay : Path) (dryRun : Bool) :
    Preparation Path := do
  let h ← host
  if h.isPresent overlay then
    record [.sidecarReused artifact overlay sidecar]
    return sidecar
  if !h.isPresent source then
    if dryRun then record [.sourceMissing artifact source]
    else throw (.missingArtifact artifact source)
  if h.isPresent sidecar then
    record [.sidecarPresent artifact sidecar]
  else if dryRun then
    print ⟨source, sidecar⟩
  else
    match h.files.copy h.cwd source sidecar with
    | .ok files =>
      setFiles files
      record [.copied artifact source sidecar]
    | .error fault => throw (.copy source sidecar fault)
  return sidecar

end LaunchPlan.Preparation
