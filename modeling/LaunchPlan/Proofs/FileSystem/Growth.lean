import LaunchPlan.FileSystem.Copy
import LaunchPlan.Proofs.FileSystem.Lookup

/-!
File systems that only gain files. Main statements: `followTo_add`, a walk goes as it did before a
file was put into a gap, and arrives where it missed that file; `Grows.follow_found`, what is found
stays found; `copied_of_copy`, a copy to a path where nothing is present adds one file, with the
content of the source, and `Copied.follow_target`, the target leads to it.
-/

namespace LaunchPlan

/-- How a walk ends once there is a file in a gap. -/
def Walk.fill (gap : Location) : Walk → Walk
  | .missing place rest =>
    if place ≠ gap then .missing place rest
    else if rest = [] then .found place
    else .blocked place rest
  | w => w

namespace Walk

@[simp] theorem fill_found (gap place : Location) : (found place).fill gap = .found place := rfl

@[simp] theorem fill_blocked (gap place : Location) (rest : List Name) :
    (blocked place rest).fill gap = .blocked place rest := rfl

@[simp] theorem fill_failed (gap : Location) (fault : Fault) :
    (failed fault).fill gap = .failed fault := rfl

theorem fill_missing_gap (gap : Location) : (missing gap []).fill gap = .found gap := by
  simp [fill]

end Walk

namespace FileSystem

theorem get?_add_gap {fs : FileSystem} {gap : Location} {entry : Entry} (fits : entry.Fits gap)
    (h : fs.get? gap = none) (place : Location) :
    (fs.add gap entry fits).get? place = if place = gap then some entry else fs.get? place := by
  cases gap with
  | nil => simp at h
  | cons name parent => exact get?_add fs name parent entry fits place

variable {fs : FileSystem} {gap : Location} {content : List UInt8} {executable : Bool}
  {fits : (Entry.file content executable).Fits gap}

/-- A file is no place to stand. -/
theorem isStanding_add (h : fs.get? gap = none) (here : Location) :
    (fs.add gap (.file content executable) fits).isStanding here = fs.isStanding here := by
  induction here with
  | nil => rfl
  | cons name parent ih =>
    simp only [isStanding, get?_add_gap fits h, ih]
    by_cases hg : name :: parent = gap
    · simp [hg, h]
    · simp [hg]

/-- A file is looked up as a gap is. -/
theorem lookupLength_add (h : fs.get? gap = none) (place : Location) (rest : List Name) :
    (fs.add gap (.file content executable) fits).lookupLength place rest
      = fs.lookupLength place rest := by
  rw [lookupLength, lookupLength, get?_add_gap fits h]
  by_cases hg : place = gap
  · simp [hg, h]
  · rw [if_neg hg]

theorem walkNames_add {aim : Aim} {onLink onLink' : Location → Path → List Name → Walk}
    (h : fs.get? gap = none)
    (link : ∀ here target rest, onLink' here target rest = (onLink here target rest).fill gap)
    (here : Location) (names : List Name) :
    (fs.add gap (.file content executable) fits).walkNames aim onLink' here names
      = (fs.walkNames aim onLink here names).fill gap := by
  induction names generalizing here with
  | nil => rfl
  | cons name rest ih =>
    simp only [walkNames, lookupLength_add h]
    split
    · exact ih here
    split
    · exact ih here.tail
    split
    · rfl
    split
    · rfl
    split
    · rfl
    rw [get?_add_gap fits h]
    by_cases hg : name :: here = gap
    · -- The walk missed the file before, and now arrives at it or is blocked by it.
      rw [if_pos hg, hg, h]
      by_cases hr : rest = []
      · simp [hr, Walk.fill]
      · simp [hr, Walk.fill]
    · rw [if_neg hg]
      cases fs.get? (name :: here) with
      | none => simp [Walk.fill, hg]
      | some entry =>
        cases entry with
        | directory => exact ih _
        | link target => exact link here target rest
        | file _ _ => by_cases hr : rest = [] <;> simp [hr]
        | device => by_cases hr : rest = [] <;> simp [hr]

theorem walk_add {aim : Aim} (h : fs.get? gap = none) (links : Nat) (here : Location)
    (names : List Name) :
    (fs.add gap (.file content executable) fits).walk aim links here names
      = (fs.walk aim links here names).fill gap := by
  induction links generalizing here names with
  | zero =>
    simp only [walk]
    apply walkNames_add h
    intro _ _ _
    rfl
  | succ links ih => exact walkNames_add h (fun _ _ _ => ih _ _) here names

/-- A new file changes only the walks that missed it. -/
theorem followTo_add (h : fs.get? gap = none) (aim : Aim) (cwd : Location) (p : Path) :
    (fs.add gap (.file content executable) fits).followTo aim cwd p
      = (fs.followTo aim cwd p).fill gap := by
  simp only [followTo, isStanding_add h]
  split
  · rfl
  split
  · rfl
  split
  · rfl
  · exact walk_add h _ _ _

/-- A file system that came to be from another one by files put into gaps. -/
inductive Grows (fs : FileSystem) : FileSystem → Prop
  | refl : Grows fs fs
  | add {mid : FileSystem} {gap : Location} {content : List UInt8} {executable : Bool}
      {fits : (Entry.file content executable).Fits gap}
      (grown : Grows fs mid) (empty : mid.get? gap = none) :
      Grows fs (mid.add gap (.file content executable) fits)

namespace Grows

variable {before after later : FileSystem} {cwd : Location} {p : Path}

theorem trans (h : Grows before after) (h' : Grows after later) : Grows before later := by
  induction h' with
  | refl => exact h
  | add _ empty ih => exact .add ih empty

theorem isStanding (h : Grows before after) (here : Location) :
    after.isStanding here = before.isStanding here := by
  induction h with
  | refl => rfl
  | add _ empty ih => rw [isStanding_add empty, ih]

theorem bar? (h : Grows before after) (place : Location) : after.bar? place = before.bar? place := by
  induction h with
  | refl => rfl
  | add _ _ ih => rw [bar?_add, ih]

theorem get? {place : Location} {entry : Entry} (h : Grows before after)
    (found : before.get? place = some entry) : after.get? place = some entry := by
  induction h with
  | refl => exact found
  | add _ empty ih =>
    rw [get?_add_gap _ empty, if_neg, ih]
    rintro rfl
    simp [empty] at ih

theorem follow_found {aim : Aim} {place : Location} (h : Grows before after)
    (found : before.followTo aim cwd p = .found place) :
    after.followTo aim cwd p = .found place := by
  induction h with
  | refl => exact found
  | add _ empty ih => rw [followTo_add empty, ih, Walk.fill_found]

theorem follow_failed {aim : Aim} {fault : Fault} (h : Grows before after)
    (failed : before.followTo aim cwd p = .failed fault) :
    after.followTo aim cwd p = .failed fault := by
  induction h with
  | refl => exact failed
  | add _ empty ih => rw [followTo_add empty, ih, Walk.fill_failed]

theorem isPresent (h : Grows before after) (present : before.isPresent cwd p = true) :
    after.isPresent cwd p = true := by
  obtain ⟨place, found, -⟩ := isPresent_iff.1 present
  simp [FileSystem.isPresent, h.follow_found found, Walk.isFound]

/-- What is present keeps its canonical path, or keeps having none. -/
theorem canonical_eq (h : Grows before after) (present : before.isPresent cwd p = true) :
    after.canonical cwd p = before.canonical cwd p := by
  obtain ⟨place, found, -⟩ := isPresent_iff.1 present
  have hwalk : after.followTo .name cwd p = before.followTo .name cwd p := by
    rcases followTo_eq before .name cwd p with hn | hn
    · rw [hn, h.follow_failed hn]
    · rw [hn, found, h.follow_found (hn.trans found)]
  simp only [canonical, hwalk]

end Grows

theorem openFile_ok {fs : FileSystem} {cwd : Location} {p : Path} {file : Entry}
    (h : fs.openFile cwd p = .ok file) :
    ∃ place content executable, fs.follow cwd p = .found place ∧
      fs.get? place = some file ∧ file = .file content executable := by
  unfold openFile at h
  cases hw : fs.follow cwd p with
  | found place =>
    simp only [hw, Walk.toExcept, bind, Except.bind] at h
    split at h
    · next content executable he =>
      cases h
      exact ⟨place, content, executable, rfl, he, rfl⟩
    · simp at h
  | missing _ _ | blocked _ _ | failed _ => simp [hw, Walk.toExcept, bind, Except.bind] at h

theorem writePlace_ok {fs : FileSystem} {cwd : Location} {p : Path} {place : Location}
    (habsent : fs.isPresent cwd p = false) (h : fs.writePlace cwd p = .ok place) :
    fs.follow cwd p = .missing place [] ∧ place.isNamed = true ∧ fs.IsGap place := by
  unfold isPresent at habsent
  unfold writePlace at h
  rcases followTo_eq fs .make cwd p with hm | hm
  · simp [hm] at h
  rw [hm] at h
  cases hw : fs.follow cwd p with
  | found _ => simp [hw, Walk.isFound] at habsent
  | missing q rest =>
    simp only [hw] at h
    split at h
    · next hr =>
      cases h
      obtain ⟨rfl, hn⟩ := hr
      exact ⟨rfl, hn, follow_missing hw⟩
    · simp at h
  | blocked _ _ | failed _ => simp [hw] at h

theorem put_file (h : fs.get? gap = none) :
    fs.put gap (.file content executable) = fs.add gap (.file content executable) fits := by
  rw [put, h, if_neg (by simp), dif_pos fits]

/-- After a copy there is one file more. It lies where the target led to nothing, and is the file
that the source leads to. -/
structure Copied (cwd : Location) (source target : Path) (place : Location) (file : Entry)
    (before after : FileSystem) : Prop where
  isFile : ∃ content executable, file = .file content executable
  source : ∃ origin, before.follow cwd source = .found origin ∧ before.get? origin = some file
  target : before.follow cwd target = .missing place []
  gap : before.get? place = none
  after : ∃ fits, after = before.add place file fits

theorem copied_of_copy {before after : FileSystem} {cwd : Location} {source target : Path}
    (absent : before.isPresent cwd target = false)
    (h : before.copy cwd source target = .ok after) :
    ∃ place file, Copied cwd source target place file before after := by
  unfold copy at h
  cases hs : before.openFile cwd source with
  | error _ => simp [hs, bind, Except.bind] at h
  | ok file =>
    cases ht : before.writePlace cwd target with
    | error _ => simp [hs, ht, bind, Except.bind] at h
    | ok place =>
      simp only [hs, ht, bind, Except.bind, pure, Except.pure, Except.ok.injEq] at h
      obtain ⟨origin, content, executable, hfrom, hentry, rfl⟩ := openFile_ok hs
      obtain ⟨hto, -, hgap⟩ := writePlace_ok absent ht
      have hfits := fits_of_missing hto content executable
      exact ⟨place, _, ⟨content, executable, rfl⟩, ⟨origin, hfrom, hentry⟩, hto, hgap.entry, hfits,
        by rw [← h, put_file hgap.entry]⟩

namespace Copied

variable {cwd : Location} {source target : Path} {place : Location} {file : Entry}
  {before after : FileSystem}

theorem grows (h : Copied cwd source target place file before after) : before.Grows after := by
  obtain ⟨_, _, rfl⟩ := h.isFile
  obtain ⟨_, rfl⟩ := h.after
  exact .add .refl h.gap

theorem get? (h : Copied cwd source target place file before after) (other : Location) :
    after.get? other = if other = place then some file else before.get? other := by
  obtain ⟨fits, rfl⟩ := h.after
  exact get?_add_gap fits h.gap other

theorem follow_target (h : Copied cwd source target place file before after) :
    after.follow cwd target = .found place := by
  obtain ⟨_, _, rfl⟩ := h.isFile
  obtain ⟨_, rfl⟩ := h.after
  rw [follow, followTo_add h.gap, ← follow, h.target, Walk.fill_missing_gap]

theorem isPresent_target (h : Copied cwd source target place file before after) :
    after.isPresent cwd target = true := by
  simp [FileSystem.isPresent, h.follow_target, Walk.isFound]

end Copied

end FileSystem

end LaunchPlan
