import LaunchPlan.FileSystem.Walk
import LaunchPlan.Proofs.Path.Segments

/-!
What a walk makes sure of about the names on its way. Main statements: `followTo_lookup`, it looks
up proper names only, `fits_of_missing`, so a file can lie where it misses a name, and
`IsEnd.proper`, where it ends the names are proper.
-/

namespace LaunchPlan.FileSystem

variable {fs : FileSystem} {aim : Aim} {cwd here place : Location} {p : Path} {name : Name}
  {rest : List Name}

theorem pathLength_le_lookupLength (fs : FileSystem) (place : Location) (rest : List Name) :
    place.pathLength ≤ fs.lookupLength place rest := by
  unfold lookupLength
  split
  · exact Nat.le_refl _
  · exact Nat.le_add_right _ _

theorem lookupLength_le (fs : FileSystem) (place : Location) (rest : List Name) :
    fs.lookupLength place rest ≤ place.pathLength + (checksDirectory rest).toNat := by
  unfold lookupLength
  split
  · exact Nat.le_add_right _ _
  · exact Nat.le_refl _

@[simp] theorem lookupLength_nil (fs : FileSystem) (place : Location) :
    fs.lookupLength place [] = place.pathLength := by
  unfold lookupLength
  split
  · rfl
  · rfl

/-- Before a proper name no directory is asked for. -/
theorem checksDirectory_cons (proper : name.IsProper) (rest : List Name) :
    checksDirectory (name :: rest) = false := by
  simp [checksDirectory, proper.nonempty, proper.notDot, proper.notDotDot]

theorem checksDirectory_append {names : List Name} (proper : ∀ name ∈ names, name.IsProper)
    (rest : List Name) : (checksDirectory (names ++ rest)).toNat ≤ (checksDirectory rest).toNat := by
  cases names with
  | nil => exact Nat.le_refl _
  | cons name names =>
    rw [List.cons_append, checksDirectory_cons (proper name List.mem_cons_self)]
    exact Nat.zero_le _

/-- What a walk has made sure of when it looks up a name in a directory. -/
structure Lookup (aim : Aim) (here : Location) (name : Name) : Prop where
  proper : name.IsProper
  short : aim = .name → Location.pathLength (name :: here) < maxPath

/-- What a property of outcomes needs to hold of every walk, where it counts which name was looked
up last. -/
theorem walkNames_lookup {onLink : Location → Path → List Name → Walk} {P : Walk → Prop}
    (directory : ∀ place, fs.isStanding place = true → P (.found place))
    (entry : ∀ here name, Lookup aim here name → P (.found (name :: here)))
    (missing : ∀ here name rest, Lookup aim here name → P (.missing (name :: here) rest))
    (blocked : ∀ place rest, P (.blocked place rest))
    (failed : ∀ fault, P (.failed fault))
    (link : ∀ place here target rest, fs.get? place = some (.link target) →
      fs.isStanding here = true → (∀ name ∈ rest, name.IsPlain) → P (onLink here target rest))
    (here : Location) (names : List Name) (h : fs.isStanding here = true)
    (plain : ∀ name ∈ names, name.IsPlain) :
    P (fs.walkNames aim onLink here names) := by
  induction names generalizing here with
  | nil => exact directory here h
  | cons name rest ih =>
    have hrest : ∀ other ∈ rest, other.IsPlain :=
      fun other hother => plain other (List.mem_cons_of_mem _ hother)
    simp only [walkNames]
    split
    · exact ih here h hrest
    next hname =>
    split
    · exact ih here.tail (isStanding_tail h) hrest
    next hdotDot =>
    split
    · exact failed _
    split
    · exact failed _
    next hshort =>
    split
    · exact failed _
    next hlength =>
    have hlookup : Lookup aim here name := by
      rw [not_or] at hname
      refine ⟨⟨hname.1, hname.2, hdotDot, by omega, plain name List.mem_cons_self⟩, ?_⟩
      intro haim
      have hle := pathLength_le_lookupLength fs (name :: here) rest
      have hlooked : ¬maxPath ≤ fs.lookupLength (name :: here) rest := by simpa [haim] using hlength
      omega
    split
    · exact missing here name rest hlookup
    · next hd => exact ih _ (by simp [isStanding, hd, h]) hrest
    · next hlink => exact link _ here _ rest hlink h hrest
    · split
      · exact entry here name hlookup
      · exact blocked _ _

theorem walk_lookup {P : Walk → Prop}
    (directory : ∀ place, fs.isStanding place = true → P (.found place))
    (entry : ∀ here name, Lookup aim here name → P (.found (name :: here)))
    (missing : ∀ here name rest, Lookup aim here name → P (.missing (name :: here) rest))
    (blocked : ∀ place rest, P (.blocked place rest))
    (failed : ∀ fault, P (.failed fault))
    (links : Nat) (here : Location) (names : List Name) (h : fs.isStanding here = true)
    (plain : ∀ name ∈ names, name.IsPlain) :
    P (fs.walk aim links here names) := by
  induction links generalizing here names with
  | zero =>
    exact walkNames_lookup directory entry missing blocked failed (fun _ _ _ _ _ _ _ => failed _)
      here names h plain
  | succ links ih =>
    refine walkNames_lookup directory entry missing blocked failed ?_ here names h plain
    intro place hp target rest hlink hstanding hrest
    refine ih _ _ ?_ ?_
    · unfold startOf
      split
      · rfl
      · exact hstanding
    · intro name hname
      rcases List.mem_append.1 hname with hname | hname
      · exact Path.plain_of_mem_hops (zero_notMem_target hlink) hname
      · exact hrest name hname

theorem followTo_lookup {P : Walk → Prop}
    (directory : ∀ place, fs.isStanding place = true → P (.found place))
    (entry : ∀ here name, Lookup aim here name → P (.found (name :: here)))
    (missing : ∀ here name rest, Lookup aim here name → P (.missing (name :: here) rest))
    (blocked : ∀ place rest, P (.blocked place rest))
    (failed : ∀ fault, P (.failed fault))
    (cwd : Location) (p : Path) : P (fs.followTo aim cwd p) := by
  unfold followTo
  split
  · exact failed _
  next hzero =>
  split
  · exact failed _
  split
  · exact failed _
  next hstart =>
  exact walk_lookup directory entry missing blocked failed _ _ _
    (by simpa using fun hs => hstart (.inr hs)) fun _ => Path.plain_of_mem_hops hzero

/-- A name that a walk misses is one that an entry could have. -/
theorem proper_of_missing (h : fs.followTo aim cwd p = .missing (name :: here) rest) :
    name.IsProper := by
  have key := @followTo_lookup fs aim (fun w => w = .missing (name :: here) rest → name.IsProper)
    (by simp) (by simp) (fun _ _ _ hlookup he => by cases he; exact hlookup.proper)
    (by simp) (by simp) cwd p
  exact key h

/-- A file can lie where a walk misses a name. -/
theorem fits_of_missing (h : fs.followTo aim cwd p = .missing place rest) (content : List UInt8)
    (executable : Bool) : (Entry.file content executable).Fits place where
  proper name hname _ := by
    obtain ⟨here, rfl⟩ := List.head?_eq_some_iff.1 hname
    exact proper_of_missing h
  readable target htarget := by cases htarget

/-- The path of what a walk finds under a name is short enough to be followed, if the walk was
made for the path. -/
theorem short_of_found (h : fs.followTo .name cwd p = .found place)
    (file : fs.get? place ≠ some .directory) : place.pathLength < maxPath := by
  have key := @followTo_lookup fs .name (fun w => w = .found place → place.pathLength < maxPath)
    (fun _ hstanding he => by cases he; exact absurd (get?_of_isStanding hstanding) file)
    (fun _ _ hlookup he => by cases he; exact hlookup.short rfl) (by simp) (by simp) (by simp) cwd p
  exact key h

theorem proper_of_isStanding (h : fs.isStanding here = true) (hname : name ∈ here)
    (hne : name ≠ []) : name.IsProper := by
  induction here with
  | nil => cases hname
  | cons first parent ih =>
    rcases List.mem_cons.1 hname with rfl | hparent
    · exact proper_of_get? (get?_of_isStanding h) hne
    · exact ih (isStanding_tail h) hparent

theorem IsEnd.proper (h : fs.IsEnd place) (hname : name ∈ place) (hne : name ≠ []) :
    name.IsProper := by
  obtain ⟨e, hentry, -⟩ := h.entry
  cases place with
  | nil => cases hname
  | cons first parent =>
    rcases List.mem_cons.1 hname with rfl | hparent
    · exact proper_of_get? hentry hne
    · exact proper_of_isStanding h.standing hparent hne

end LaunchPlan.FileSystem
