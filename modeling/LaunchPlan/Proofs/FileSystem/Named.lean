import LaunchPlan.FileSystem.Query

/-!
Places that paths can name. Main statements: `followTo_isNamed`, a walk from a working directory
that still has a path ends where there is a path to, `canonical_eq_ok_iff` and `absolute_eq_ok_iff`,
which paths the two other forms of a path are, and `canonical_error`, for a working directory that
still has a path the canonical path of what is present is wanting for one reason only.
-/

namespace LaunchPlan

theorem Location.isNamed_cons {name : Name} {here : Location} :
    Location.isNamed (name :: here) = true ↔ name ≠ [] ∧ here.isNamed = true := by
  simp [isNamed]

theorem Location.isNamed_tail {here : Location} (named : here.isNamed = true) :
    Location.isNamed here.tail = true := by
  cases here with
  | nil => rfl
  | cons name parent => exact (isNamed_cons.1 named).2

namespace FileSystem

variable {fs : FileSystem} {aim : Aim} {cwd here place : Location} {p q : Path} {fault : Fault}

theorem startOf_isNamed (named : cwd.isNamed = true) (p : Path) :
    Location.isNamed (startOf cwd p) = true := by
  unfold startOf
  split
  · rfl
  · exact named

theorem walkNames_isNamed {onLink : Location → Path → List Name → Walk} {names : List Name}
    (link : ∀ here target rest, here.isNamed = true → onLink here target rest = .found place →
      place.isNamed = true)
    (named : here.isNamed = true) (h : fs.walkNames aim onLink here names = .found place) :
    place.isNamed = true := by
  induction names generalizing here with
  | nil =>
    cases h
    exact named
  | cons name rest ih =>
    simp only [walkNames] at h
    split at h
    · exact ih named h
    next hname =>
    have hnext : Location.isNamed (name :: here) = true :=
      Location.isNamed_cons.2 ⟨fun hempty => hname (.inl hempty), named⟩
    split at h
    · exact ih (Location.isNamed_tail named) h
    split at h
    · cases h
    split at h
    · cases h
    split at h
    · cases h
    split at h
    · cases h
    · exact ih hnext h
    · exact link here _ rest named h
    · split at h
      · cases h
        exact hnext
      · cases h

theorem walk_isNamed {links : Nat} {names : List Name} (named : here.isNamed = true)
    (h : fs.walk aim links here names = .found place) : place.isNamed = true := by
  induction links generalizing here names with
  | zero => exact walkNames_isNamed (fun _ _ _ _ hlink => by cases hlink) named h
  | succ links ih =>
    exact walkNames_isNamed (fun _ target _ hstart hlink => ih (startOf_isNamed hstart target) hlink)
      named h

theorem followTo_isNamed (named : cwd.isNamed = true)
    (h : fs.followTo aim cwd p = .found place) : place.isNamed = true := by
  unfold followTo at h
  split at h
  · cases h
  split at h
  · cases h
  split at h
  · cases h
  · exact walk_isNamed (startOf_isNamed named p) h

theorem workingPath_ok_iff : (∃ q, workingPath cwd = .ok q) ↔ cwd.isNamed = true := by
  unfold workingPath Location.path?
  cases cwd.isNamed with
  | false => simp
  | true => by_cases hroot : cwd = [] <;> simp [hroot]

theorem absolute_ok_iff (nonempty : p.bytes ≠ []) :
    (∃ q, absolute cwd p = .ok q) ↔ p.isAbsolute = true ∨ cwd.isNamed = true := by
  rw [absolute, if_neg nonempty]
  cases habsolute : p.isAbsolute with
  | true => simp
  | false =>
    rw [← workingPath_ok_iff]
    cases workingPath cwd with
    | ok base => simp [Except.map]
    | error fault => simp [Except.map]

theorem isNamed_of_path (path : place.path? = some q) : place.isNamed = true := by
  cases hnamed : place.isNamed with
  | true => rfl
  | false => simp [Location.path?, hnamed] at path

theorem workingPath_eq_ok_iff : workingPath cwd = .ok q ↔ cwd.path? = some q := by
  unfold workingPath
  cases cwd.path? with
  | none => simp
  | some base => simp

/-- A canonical path is that of the place where a walk ends that wants a path. -/
theorem canonical_eq_ok_iff :
    fs.canonical cwd p = .ok q ↔ (startOf cwd p).isNamed = true ∧
      ∃ place, fs.followTo .name cwd p = .found place ∧ place.path? = some q := by
  rw [← workingPath_ok_iff]
  unfold canonical
  cases workingPath (startOf cwd p) with
  | error fault => simp [bind, Except.bind]
  | ok start =>
    cases fs.followTo .name cwd p with
    | found place => simp [Walk.toExcept, bind, Except.bind, workingPath_eq_ok_iff]
    | missing _ _ | blocked _ _ | failed _ => simp [Walk.toExcept, bind, Except.bind]

/-- A path is made absolute from the path of the place where it starts. -/
theorem absolute_eq_ok_iff :
    absolute cwd p = .ok q ↔
      p.bytes ≠ [] ∧ ∃ base, (startOf cwd p).path? = some base ∧ p.absoluteFrom base = q := by
  unfold absolute startOf
  by_cases hempty : p.bytes = []
  · simp [hempty]
  rw [if_neg hempty]
  cases p.isAbsolute with
  | true => simp [hempty, Location.path?, Location.isNamed]
  | false =>
    cases hpath : cwd.path? with
    | none => simp [workingPath, hpath, Except.map]
    | some base => simp [hempty, workingPath, hpath, Except.map]

/-- A path has a canonical form, if it is the path of something. -/
def HasCanonical (fs : FileSystem) (cwd : Location) (p : Path) : Prop :=
  fs.isPresent cwd p = true → ∃ q, fs.canonical cwd p = .ok q

/-- The only canonical paths that are wanting are too long. -/
theorem canonical_error (named : cwd.isNamed = true) (present : fs.isPresent cwd p = true)
    (h : fs.canonical cwd p = .error fault) : fault = .nameTooLong := by
  obtain ⟨place, hfound, -⟩ := isPresent_iff.1 present
  obtain ⟨start, hstart⟩ := workingPath_ok_iff.2 (startOf_isNamed named p)
  unfold canonical at h
  rcases followTo_eq fs .name cwd p with hwalk | hwalk
  · simp only [hstart, hwalk, Walk.toExcept, bind, Except.bind, Except.error.injEq] at h
    exact h.symm
  · rw [hfound] at hwalk
    obtain ⟨q, hq⟩ := workingPath_ok_iff.2 (followTo_isNamed named hwalk)
    simp only [hstart, hwalk, Walk.toExcept, bind, Except.bind, hq] at h
    cases h

theorem settle_ok_iff (named : cwd.isNamed = true) (nonempty : p.bytes ≠ []) :
    (∃ q, fs.settle cwd p = .ok q) ↔ fs.HasCanonical cwd p := by
  unfold settle HasCanonical
  cases fs.isPresent cwd p with
  | true => simp
  | false => simpa using (absolute_ok_iff nonempty).2 (.inr named)

theorem settle_error (named : cwd.isNamed = true) (nonempty : p.bytes ≠ [])
    (h : fs.settle cwd p = .error fault) : fault = .nameTooLong := by
  unfold settle at h
  split at h
  · next hpresent => exact canonical_error named hpresent h
  · obtain ⟨q, hq⟩ := (absolute_ok_iff nonempty).2 (.inr named)
    cases h.symm.trans hq

end FileSystem

end LaunchPlan
