import LaunchPlan.Proofs.FileSystem.Lookup
import LaunchPlan.Proofs.FileSystem.Named

/-!
The paths of places. Main statements: `followTo_path`, the path of a place leads there from
everywhere, `follow_canonical`, a canonical path leads where it was taken from, and
`canonical_again`, it stays as it is.
-/

namespace LaunchPlan

namespace FileSystem

variable {fs : FileSystem} {aim : Aim}

theorem isStanding_of_append {names : List Name} {here : Location}
    (h : fs.isStanding (names ++ here) = true) : fs.isStanding here = true := by
  induction names with
  | nil => exact h
  | cons name names ih => exact ih (isStanding_tail h)

theorem pathLength_le_append (names : List Name) (here : Location) :
    here.pathLength ≤ Location.pathLength (names ++ here) := by
  induction names with
  | nil => exact Nat.le_refl _
  | cons name names ih =>
    have hnext : Location.pathLength (name :: (names ++ here))
        = name.length + 1 + Location.pathLength (names ++ here) := rfl
    rw [List.cons_append, hnext]
    omega

/-- A walk goes through the names of a directory, unless it is for a path that would be too long, or
to make a file where only a directory can be. -/
theorem walkNames_through {onLink : Location → Path → List Name → Walk} (names rest : List Name)
    (here : Location) (goesOn : aim = .make → ∃ name ∈ rest, name ≠ [])
    (proper : ∀ name ∈ names, name.IsProper)
    (h : fs.isStanding (names.reverse ++ here) = true)
    (short : aim = .name →
      Location.pathLength (names.reverse ++ here) + (checksDirectory rest).toNat < maxPath) :
    fs.walkNames aim onLink here (names ++ rest)
      = fs.walkNames aim onLink (names.reverse ++ here) rest := by
  induction names generalizing here with
  | nil => rfl
  | cons name names ih =>
    have hname : name.IsProper := proper name List.mem_cons_self
    have hplace : (name :: names).reverse ++ here = names.reverse ++ name :: here := by simp
    rw [hplace] at h short ⊢
    have hbelow : fs.isStanding (name :: here) = true := isStanding_of_append h
    have hnames : ∀ other ∈ names, other.IsProper :=
      fun other hother => proper other (List.mem_cons_of_mem _ hother)
    have hlength : ¬(aim = .name ∧ maxPath ≤ fs.lookupLength (name :: here) (names ++ rest)) := by
      rintro ⟨haim, hlong⟩
      have hall := short haim
      have hle := pathLength_le_append names.reverse (name :: here)
      have hlooked := lookupLength_le fs (name :: here) (names ++ rest)
      have hasked := checksDirectory_append hnames rest
      omega
    have hmake : ¬(aim = .make ∧ asksDirectory (names ++ rest) = true) := by
      rintro ⟨haim, hasks⟩
      obtain ⟨other, hother, hne⟩ := goesOn haim
      rw [asksDirectory, Bool.and_eq_true] at hasks
      have hempty := List.all_eq_true.1 hasks.2 other (List.mem_append_right _ hother)
      exact hne (of_decide_eq_true hempty)
    simp only [List.cons_append, walkNames, hname.nonempty, hname.notDot, hname.notDotDot, or_self,
      if_false, hmake, Nat.not_lt.2 hname.short, hlength, get?_of_isStanding hbelow]
    exact ih (name :: here) hnames h short

/-- A walk along the names of a place arrives there. -/
theorem walkNames_place {onLink : Location → Path → List Name → Walk} (looks : aim ≠ .make)
    {place : Location} (proper : ∀ name ∈ place, name.IsProper) (h : fs.IsEnd place)
    (short : aim = .name → place.pathLength < maxPath) :
    fs.walkNames aim onLink [] place.reverse = .found place := by
  cases place with
  | nil => rfl
  | cons name parent =>
    have hname : name.IsProper := proper name List.mem_cons_self
    have hparent : parent.reverse.reverse ++ [] = parent := by simp
    have hle := pathLength_le_append [name] parent
    have hlength : ¬(aim = .name ∧ maxPath ≤ fs.lookupLength (name :: parent) []) := by
      rintro ⟨haim, hlong⟩
      rw [lookupLength_nil] at hlong
      exact absurd (short haim) (Nat.not_lt.2 hlong)
    rw [List.reverse_cons, walkNames_through parent.reverse [name] [] (absurd · looks), hparent]
    · obtain ⟨e, hentry, hlink⟩ := h.entry
      simp only [walkNames, hname.nonempty, hname.notDot, hname.notDotDot, or_self, if_false, looks,
        false_and, Nat.not_lt.2 hname.short, hlength, hentry]
      cases e with
      | link target => exact absurd rfl (hlink target)
      | directory => rfl
      | file _ _ => rfl
      | device => rfl
    · exact fun other hother => proper other (List.mem_cons_of_mem _ (List.mem_reverse.1 hother))
    · rw [hparent]
      exact h.standing
    · rw [hparent]
      intro haim
      rw [checksDirectory_cons hname, Bool.toNat_false, Nat.add_zero]
      exact Nat.lt_of_le_of_lt hle (short haim)

theorem walk_eq_walkNames (links : Nat) :
    ∃ onLink, ∀ here names, fs.walk aim links here names = fs.walkNames aim onLink here names := by
  cases links with
  | zero => exact ⟨_, fun _ _ => rfl⟩
  | succ links => exact ⟨_, fun _ _ => rfl⟩

/-- The path of a place leads there from every working directory, if it is not too long. -/
theorem followTo_path (looks : aim ≠ .make) {place : Location} {p : Path}
    (hpath : place.path? = some p) (h : fs.IsEnd place) (hshort : p.bytes.length < maxPath)
    (cwd : Location) :
    fs.followTo aim cwd p = .found place := by
  have hproper : ∀ name ∈ place, name.IsProper :=
    fun name hname => h.proper hname (Location.named_of_path hpath hname)
  have hplain : ∀ name ∈ place, name.IsPlain := fun name hname => (hproper name hname).plain
  have hbytes : p.bytes ≠ [] := Path.bytes_ne_nil_of_isAbsolute (Location.isAbsolute_path hpath)
  have hstart : startOf cwd p = [] := by simp [startOf, Location.isAbsolute_path hpath]
  obtain ⟨onLink, hwalk⟩ := @walk_eq_walkNames fs aim maxLinks
  unfold followTo
  rw [if_neg (Location.zero_notMem_path hpath hplain), if_neg (Nat.not_le.2 hshort), hstart,
    if_neg (by simp [hbytes, isStanding]), hwalk]
  by_cases hne : place = []
  · subst hne
    cases hpath
    rfl
  · rw [Location.hops_path hpath hne hplain]
    exact walkNames_place looks hproper h
      fun _ => by rwa [← Location.length_path hpath hne]

theorem path_of_canonical {cwd : Location} {p q : Path} {place : Location}
    (canonical : fs.canonical cwd p = .ok q) (h : fs.follow cwd p = .found place) :
    fs.followTo .name cwd p = .found place ∧ place.path? = some q := by
  obtain ⟨-, named, hwalk, hpath⟩ := canonical_eq_ok_iff.1 canonical
  have hsame : place = named := by
    rcases followTo_eq fs .name cwd p with hlong | hfollow
    · cases hlong.symm.trans hwalk
    · rw [hwalk, h] at hfollow
      exact (Walk.found.inj hfollow).symm
  rw [hsame]
  exact ⟨hwalk, hpath⟩

/-- A canonical path leads where it was taken from, from every working directory, if it is not too
long. -/
theorem follow_canonical {cwd : Location} {p q : Path} {place : Location}
    (canonical : fs.canonical cwd p = .ok q) (h : fs.follow cwd p = .found place)
    (short : q.bytes.length < maxPath) (other : Location) :
    fs.follow other q = .found place := by
  obtain ⟨-, hpath⟩ := path_of_canonical canonical h
  exact followTo_path (by decide) hpath (follow_found h) short other

/-- The canonical path of what is no directory is not too long. -/
theorem canonical_short {cwd : Location} {p q : Path} {place : Location}
    (canonical : fs.canonical cwd p = .ok q) (h : fs.follow cwd p = .found place)
    (file : fs.get? place ≠ some .directory) :
    q.bytes.length < maxPath := by
  obtain ⟨hwalk, hpath⟩ := path_of_canonical canonical h
  have hne : place ≠ [] := by
    rintro rfl
    simp at file
  rw [Location.length_path hpath hne]
  exact short_of_found hwalk file

/-- The path of a place where a walk may end is canonical, if it is not too long. -/
theorem canonical_path {place : Location} {p : Path} (hpath : place.path? = some p)
    (h : fs.IsEnd place) (short : p.bytes.length < maxPath) (cwd : Location) :
    fs.canonical cwd p = .ok p := by
  have hstart : startOf cwd p = [] := by simp [startOf, Location.isAbsolute_path hpath]
  have hwalk : fs.followTo .name cwd p = .found place :=
    followTo_path (by decide) hpath h short cwd
  exact canonical_eq_ok_iff.2 ⟨by rw [hstart]; rfl, place, hwalk, hpath⟩

/-- A canonical path stays as it is, if it is not too long. -/
theorem canonical_again {cwd : Location} {p q : Path} {place : Location}
    (canonical : fs.canonical cwd p = .ok q) (h : fs.follow cwd p = .found place)
    (short : q.bytes.length < maxPath) (other : Location) :
    fs.canonical other q = .ok q := by
  obtain ⟨-, hpath⟩ := path_of_canonical canonical h
  exact canonical_path hpath (follow_found h) short other

end FileSystem

end LaunchPlan
