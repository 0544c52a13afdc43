import LaunchPlan.Preparation.Sidecar
import LaunchPlan.Proofs.FileSystem.Growth

/-!
What the small steps of a preparation do, as equations. Main statement: `ownArtifact_outcome`, the
seven ways in which the choice of an overlay's own copy can end, with all that is done in each.
-/

namespace LaunchPlan

/-- How a step ends: with a value or a failure, and in both cases with what was done until then. -/
abbrev Ending (α : Type) := EStateM.Result Failure Progress α

def Ending.progress {α : Type} : Ending α → Progress
  | .ok _ s => s
  | .error _ s => s

@[simp] theorem Ending.progress_ok {α : Type} (a : α) (s : Progress) :
    Ending.progress (.ok a s) = s := rfl

@[simp] theorem Ending.progress_error {α : Type} (e : Failure) (s : Progress) :
    Ending.progress (.error e s : Ending α) = s := rfl

namespace Progress

def logged (s : Progress) (events : List Event) : Progress :=
  { s with journal.events := s.journal.events ++ events }

def printed (s : Progress) (c : PlannedCopy) : Progress :=
  { s with journal.printed := s.journal.printed ++ [c] }

def withFiles (s : Progress) (files : FileSystem) : Progress := { s with host.files := files }

variable (s : Progress) (events : List Event) (c : PlannedCopy) (files : FileSystem)

@[simp] theorem logged_host : (s.logged events).host = s.host := rfl

@[simp] theorem logged_printed : (s.logged events).journal.printed = s.journal.printed := rfl

@[simp] theorem printed_host : (s.printed c).host = s.host := rfl

@[simp] theorem withFiles_host : (s.withFiles files).host = { s.host with files } := rfl

@[simp] theorem logged_nil : s.logged [] = s := by simp [logged]

theorem logged_logged (more : List Event) :
    (s.logged events).logged more = s.logged (events ++ more) := by
  simp [logged]

end Progress

namespace Preparation

variable {α β : Type} (s : Progress)

theorem bind_apply (x : Preparation α) (f : α → Preparation β) :
    (x >>= f) s = match x s with
      | .ok a t => f a t
      | .error e t => .error e t := by
  show EStateM.bind x f s = _
  unfold EStateM.bind
  cases x s <;> rfl

@[simp] theorem pure_apply (a : α) : (pure a : Preparation α) s = .ok a s := rfl

@[simp] theorem throw_apply (e : Failure) : (throw e : Preparation α) s = .error e s := rfl

@[simp] theorem host_apply : host s = .ok s.host s := rfl

@[simp] theorem record_apply (events : List Event) : record events s = .ok () (s.logged events) := rfl

@[simp] theorem print_apply (c : PlannedCopy) : print c s = .ok () (s.printed c) := rfl

@[simp] theorem ofIo_ok (a : α) : ofIo (.ok a) s = .ok a s := rfl

@[simp] theorem roll_apply (throwDice : Dice → MacAddress × Dice) :
    roll throwDice s
      = .ok (throwDice s.host.dice).1 { s with host.dice := (throwDice s.host.dice).2 } := rfl

theorem requirePresent_apply (artifact : Artifact) (path : Path) (overlay : Option Path)
    (dryRun : Bool) :
    requirePresent artifact path overlay dryRun s
      = if isAmiss s.host path overlay dryRun then .error (.missingArtifact artifact path) s
        else .ok () s := by
  simp only [requirePresent, bind_apply, host_apply]
  split <;> rfl

/-- The choice of an overlay's own copy of an artifact: it is made or found, and then looked for. -/
def ownArtifact (artifact : Artifact) (source sidecar overlay : Path) (dryRun : Bool) :
    Preparation Path := do
  let own ← ownCopy artifact source sidecar overlay dryRun
  requirePresent artifact own (some overlay) dryRun
  return own

def sourceEvents (artifact : Artifact) (source : Path) (present : Bool) : List Event :=
  if present then [] else [.sourceMissing artifact source]

inductive OwnOutcome (artifact : Artifact) (source sidecar overlay : Path) (dryRun : Bool)
    (s : Progress) : Ending Path → Prop
  | reused (there : s.host.isPresent overlay = true) (own : s.host.isPresent sidecar = true) :
      OwnOutcome artifact source sidecar overlay dryRun s
        (.ok sidecar (s.logged [.sidecarReused artifact overlay sidecar]))
  | lost (there : s.host.isPresent overlay = true) (own : s.host.isPresent sidecar = false) :
      OwnOutcome artifact source sidecar overlay dryRun s
        (.error (.missingArtifact artifact sidecar)
          (s.logged [.sidecarReused artifact overlay sidecar]))
  | sourceMissing (fresh : s.host.isPresent overlay = false) (real : dryRun = false)
      (absent : s.host.isPresent source = false) :
      OwnOutcome artifact source sidecar overlay dryRun s
        (.error (.missingArtifact artifact source) s)
  | kept (fresh : s.host.isPresent overlay = false)
      (usable : dryRun = true ∨ s.host.isPresent source = true)
      (own : s.host.isPresent sidecar = true) :
      OwnOutcome artifact source sidecar overlay dryRun s
        (.ok sidecar (s.logged (sourceEvents artifact source (s.host.isPresent source)
          ++ [.sidecarPresent artifact sidecar])))
  | announced (fresh : s.host.isPresent overlay = false) (dry : dryRun = true)
      (own : s.host.isPresent sidecar = false) :
      OwnOutcome artifact source sidecar overlay dryRun s
        (.ok sidecar ((s.logged (sourceEvents artifact source (s.host.isPresent source))).printed
          ⟨source, sidecar⟩))
  | copied {files : FileSystem} (fresh : s.host.isPresent overlay = false) (real : dryRun = false)
      (sound : s.host.isPresent source = true) (own : s.host.isPresent sidecar = false)
      (copy : s.host.files.copy s.host.cwd source sidecar = .ok files) :
      OwnOutcome artifact source sidecar overlay dryRun s
        (.ok sidecar ((s.withFiles files).logged [.copied artifact source sidecar]))
  | copyFailed {fault : Fault} (fresh : s.host.isPresent overlay = false) (real : dryRun = false)
      (sound : s.host.isPresent source = true) (own : s.host.isPresent sidecar = false)
      (copy : s.host.files.copy s.host.cwd source sidecar = .error fault) :
      OwnOutcome artifact source sidecar overlay dryRun s (.error (.copy source sidecar fault) s)

variable {artifact : Artifact} {source sidecar overlay : Path} {dryRun : Bool}

theorem ownCopy_there (there : s.host.isPresent overlay = true) :
    ownCopy artifact source sidecar overlay dryRun s
      = .ok sidecar (s.logged [.sidecarReused artifact overlay sidecar]) := by
  simp only [ownCopy, bind_apply, host_apply, there, if_true, record_apply, pure_apply]

theorem ownCopy_missing (fresh : s.host.isPresent overlay = false)
    (absent : s.host.isPresent source = false) :
    ownCopy artifact source sidecar overlay false s
      = .error (.missingArtifact artifact source) s := by
  simp only [ownCopy, bind_apply, host_apply, fresh, absent, Bool.false_eq_true, if_false,
    Bool.not_false, if_true, throw_apply]

theorem ownCopy_kept (fresh : s.host.isPresent overlay = false)
    (usable : dryRun = true ∨ s.host.isPresent source = true)
    (own : s.host.isPresent sidecar = true) :
    ownCopy artifact source sidecar overlay dryRun s
      = .ok sidecar (s.logged (sourceEvents artifact source (s.host.isPresent source)
          ++ [.sidecarPresent artifact sidecar])) := by
  simp only [ownCopy, bind_apply, host_apply, fresh, own, Bool.false_eq_true, if_false, if_true]
  cases hsource : s.host.isPresent source with
  | true => rfl
  | false =>
    have hdry : dryRun = true := by simpa [hsource] using usable
    simp only [hdry, Bool.not_false, if_true, bind_apply, record_apply, pure_apply,
      Progress.logged_logged, sourceEvents, Bool.false_eq_true, if_false]

theorem ownCopy_announced (fresh : s.host.isPresent overlay = false)
    (own : s.host.isPresent sidecar = false) :
    ownCopy artifact source sidecar overlay true s
      = .ok sidecar ((s.logged (sourceEvents artifact source (s.host.isPresent source))).printed
          ⟨source, sidecar⟩) := by
  simp only [ownCopy, bind_apply, host_apply, fresh, own, Bool.false_eq_true, if_false, if_true]
  cases s.host.isPresent source with
  | true =>
    simp only [Bool.not_true, Bool.false_eq_true, if_false, bind_apply, print_apply, pure_apply,
      sourceEvents, if_true, Progress.logged_nil]
  | false =>
    simp only [Bool.not_false, if_true, bind_apply, record_apply, print_apply, pure_apply,
      sourceEvents, Bool.false_eq_true, if_false]

theorem ownCopy_real (fresh : s.host.isPresent overlay = false)
    (sound : s.host.isPresent source = true) (own : s.host.isPresent sidecar = false) :
    ownCopy artifact source sidecar overlay false s
      = match s.host.files.copy s.host.cwd source sidecar with
        | .ok files => .ok sidecar ((s.withFiles files).logged [.copied artifact source sidecar])
        | .error fault => .error (.copy source sidecar fault) s := by
  simp only [ownCopy, bind_apply, host_apply, fresh, sound, own, Bool.false_eq_true, if_false,
    Bool.not_true]
  cases s.host.files.copy s.host.cwd source sidecar with
  | ok files => rfl
  | error fault => rfl

theorem ownArtifact_apply :
    ownArtifact artifact source sidecar overlay dryRun s
      = match ownCopy artifact source sidecar overlay dryRun s with
        | .ok own t =>
          if isAmiss t.host own (some overlay) dryRun then .error (.missingArtifact artifact own) t
          else .ok own t
        | .error e t => .error e t := by
  simp only [ownArtifact, bind_apply, requirePresent_apply, pure_apply]
  cases ownCopy artifact source sidecar overlay dryRun s with
  | ok own t => by_cases ha : isAmiss t.host own (some overlay) dryRun = true <;> simp [ha]
  | error e t => rfl

theorem ownArtifact_outcome {s : Progress} {r : Ending Path}
    (h : ownArtifact artifact source sidecar overlay dryRun s = r) :
    OwnOutcome artifact source sidecar overlay dryRun s r := by
  rw [ownArtifact_apply] at h
  subst h
  cases hover : s.host.isPresent overlay with
  | true =>
    rw [ownCopy_there s hover]
    cases hown : s.host.isPresent sidecar with
    | true => simpa [isAmiss, hown] using .reused hover hown
    | false => simpa [isAmiss, hown, hover] using .lost hover hown
  | false =>
    by_cases hmiss : dryRun = false ∧ s.host.isPresent source = false
    · obtain ⟨rfl, hsource⟩ := hmiss
      rw [ownCopy_missing s hover hsource]
      exact .sourceMissing hover rfl hsource
    have husable : dryRun = true ∨ s.host.isPresent source = true := by
      cases dryRun <;> simp_all
    cases hown : s.host.isPresent sidecar with
    | true =>
      rw [ownCopy_kept s hover husable hown]
      simpa [isAmiss, hown] using .kept hover husable hown
    | false =>
      cases dryRun with
      | true =>
        rw [ownCopy_announced s hover hown]
        simpa [isAmiss, hover] using .announced hover rfl hown
      | false =>
        have hsource : s.host.isPresent source = true := by simpa using husable
        rw [ownCopy_real s hover hsource hown]
        cases hcopy : s.host.files.copy s.host.cwd source sidecar with
        | ok files =>
          -- The new copy passes the last check.
          obtain ⟨place, file, hcopied⟩ := FileSystem.copied_of_copy hown hcopy
          have hnow : files.isPresent s.host.cwd sidecar = true := hcopied.isPresent_target
          simpa [isAmiss, Host.isPresent, hnow] using .copied hover rfl hsource hown hcopy
        | error fault => exact .copyFailed hover rfl hsource hown hcopy

theorem ownArtifact_value {s t : Progress} {own : Path}
    (h : ownArtifact artifact source sidecar overlay dryRun s = .ok own t) : own = sidecar := by
  cases ownArtifact_outcome h with
  | reused => rfl
  | kept => rfl
  | announced => rfl
  | copied => rfl

end Preparation

end LaunchPlan
