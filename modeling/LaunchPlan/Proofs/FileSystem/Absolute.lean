import LaunchPlan.Proofs.FileSystem.Canonical
import LaunchPlan.Proofs.FileSystem.Named
import LaunchPlan.Proofs.Path.Absolute

/-!
Where paths lead that were made absolute. Main statements: `follow_absolute`, spelled out from the
working directory a path leads where it led, and `isPresent_settle`, so does the form that it gets
where links are resolved. Both need the path and its absolute form to be short enough to be
followed, or neither.
-/

namespace LaunchPlan

theorem Walk.isFound_eq_isOk (w : Walk) : w.isFound = w.toExcept.isOk := by
  cases w with
  | found | missing | blocked | failed => rfl

namespace FileSystem

/-- The same names, but for some of the dots before others. -/
inductive Undotted : List Name → List Name → Prop
  | nil : Undotted [] []
  | cons (name : Name) {names fewer : List Name} (rest : Undotted names fewer) :
      Undotted (name :: names) (name :: fewer)
  | dot {names fewer : List Name} (rest : Undotted names fewer) (more : fewer ≠ []) :
      Undotted (Path.dot :: names) fewer

namespace Undotted

variable {names fewer : List Name}

theorem refl (names : List Name) : Undotted names names := by
  induction names with
  | nil => exact .nil
  | cons name names ih => exact .cons name ih

theorem append_left (h : Undotted names fewer) (before : List Name) :
    Undotted (before ++ names) (before ++ fewer) := by
  induction before with
  | nil => exact h
  | cons name before ih => exact .cons name ih

theorem eq_nil_iff (h : Undotted names fewer) : names = [] ↔ fewer = [] := by
  cases h with
  | nil => rfl
  | cons name rest => simp
  | dot rest more => simp [more]

theorem of_filter (folder : List Name) (name : Name) :
    Undotted (folder ++ [name]) (folder.filter (· ≠ Path.dot) ++ [name]) := by
  induction folder with
  | nil => exact refl [name]
  | cons first folder ih =>
    by_cases hdot : first = Path.dot
    · rw [hdot, List.filter_cons_of_neg (by simp)]
      exact .dot ih (by simp)
    · rw [List.filter_cons_of_pos (by simpa using hdot)]
      exact .cons first ih

end Undotted

variable {fs : FileSystem} {aim : Aim} {cwd : Location} {p q : Path} {folder names fewer : List Name}
  {name : Name}

/-- Dots that are not the last make no difference to where a walk arrives, or why it does not. -/
theorem walkNames_undotted {onLink onLink' : Location → Path → List Name → Walk}
    (link : ∀ here target {names fewer : List Name}, Undotted names fewer →
      (onLink here target names).toExcept = (onLink' here target fewer).toExcept)
    (h : Undotted names fewer) (here : Location) :
    (fs.walkNames .find onLink here names).toExcept
      = (fs.walkNames .find onLink' here fewer).toExcept := by
  induction h generalizing here with
  | nil => rfl
  | dot rest more ih =>
    simp only [walkNames, or_true, if_true]
    exact ih here
  | @cons name names fewer rest ih =>
    simp only [walkNames, reduceCtorEq, false_and, if_false]
    split
    · exact ih here
    split
    · exact ih here.tail
    split
    · rfl
    cases fs.get? (name :: here) with
    | none => rfl
    | some entry =>
      cases entry with
      | directory => exact ih (name :: here)
      | link target => exact link here target rest
      | file _ _ | device =>
        simp only [rest.eq_nil_iff]
        split
        · rfl
        · rfl

theorem walk_undotted (links : Nat) (h : Undotted names fewer) (here : Location) :
    (fs.walk .find links here names).toExcept = (fs.walk .find links here fewer).toExcept := by
  induction links generalizing names fewer here with
  | zero => exact walkNames_undotted (fun _ _ _ _ _ => rfl) h here
  | succ links ih =>
    exact walkNames_undotted
      (fun place target _ _ hrest => ih (hrest.append_left target.hops) (startOf place target)) h here

/-- A walk from the root through a directory goes on from there. -/
theorem walk_through (proper : ∀ name ∈ cwd, name.IsProper) (standing : fs.isStanding cwd = true)
    (links : Nat) (names : List Name) (goesOn : aim = .make → ∃ name ∈ names, name ≠ [])
    (short : aim = .name → cwd.pathLength + (checksDirectory names).toNat < maxPath) :
    fs.walk aim links [] (cwd.reverse ++ names) = fs.walk aim links cwd names := by
  obtain ⟨onLink, hwalk⟩ := @walk_eq_walkNames fs aim links
  have hproper : ∀ name ∈ cwd.reverse, name.IsProper :=
    fun name hname => proper name (List.mem_reverse.1 hname)
  have hplace : cwd.reverse.reverse ++ [] = cwd := by simp
  rw [hwalk, hwalk, walkNames_through cwd.reverse names [] goesOn hproper (by rwa [hplace])
    (by rwa [hplace]), hplace]

theorem proper_of_isNamed (named : cwd.isNamed = true) (standing : fs.isStanding cwd = true) :
    ∀ name ∈ cwd, name.IsProper := by
  intro name hname
  have hne : name ≠ [] := by simpa using List.all_eq_true.1 named name hname
  exact proper_of_isStanding standing hname hne

/-- A canonical path is that of a place where a walk may end. -/
theorem place_of_canonical (h : fs.canonical cwd p = .ok q) :
    ∃ place, fs.IsEnd place ∧ place.path? = some q := by
  obtain ⟨-, place, hwalk, hpath⟩ := canonical_eq_ok_iff.1 h
  exact ⟨place, follow_found hwalk, hpath⟩

theorem isAbsolute_canonical (h : fs.canonical cwd p = .ok q) : q.isAbsolute = true := by
  obtain ⟨place, -, hpath⟩ := place_of_canonical h
  exact Location.isAbsolute_path hpath

/-- The working directory is a directory, unless it was removed. -/
def IsGrounded (fs : FileSystem) (cwd : Location) : Prop :=
  cwd.isNamed = true → fs.isStanding cwd = true

theorem startOf_of_isAbsolute (h : p.isAbsolute = true) : startOf cwd p = [] := by
  rw [startOf, if_pos h]

/-- A path that can be spelled out starts at a directory that has a path. -/
theorem start_of_absolute (grounded : fs.IsGrounded cwd) (h : absolute cwd p = .ok q) :
    (startOf cwd p).isNamed = true ∧ fs.isStanding (startOf cwd p) = true := by
  obtain ⟨-, base, hpath, -⟩ := absolute_eq_ok_iff.1 h
  have hnamed := isNamed_of_path hpath
  refine ⟨hnamed, ?_⟩
  unfold startOf at hnamed ⊢
  cases habsolute : p.isAbsolute with
  | true => rfl
  | false => exact grounded (by simpa [habsolute] using hnamed)

/-- What a path is spelled out from: a root, or the path of the working directory. -/
theorem absolute_base (grounded : fs.IsGrounded cwd) (h : absolute cwd p = .ok q) :
    ∃ base : Path, q = p.absoluteFrom base ∧ base.isAbsolute = true ∧ 0 ∉ base.bytes ∧
      (if p.isAbsolute then [] else base.names) = (startOf cwd p).reverse := by
  obtain ⟨hnamed, hstanding⟩ := start_of_absolute grounded h
  obtain ⟨-, base, hpath, rfl⟩ := absolute_eq_ok_iff.1 h
  have hplain : ∀ name ∈ startOf cwd p, name.IsPlain :=
    fun name hname => (proper_of_isNamed hnamed hstanding name hname).plain
  refine ⟨base, rfl, Location.isAbsolute_path hpath, Location.zero_notMem_path hpath hplain, ?_⟩
  rw [Location.names_path hpath hplain]
  split
  · next habsolute => rw [startOf_of_isAbsolute habsolute, List.reverse_nil]
  · rfl

/-- Spelled out from the working directory, a path leads where it led, if it lost no more than dots
before other names. -/
theorem follow_spelled (grounded : fs.IsGrounded cwd) (absolute : absolute cwd p = .ok q)
    (dots : Undotted p.hops fewer) (hops : q.hops = (startOf cwd p).reverse ++ fewer)
    (lengths : q.bytes.length < maxPath ↔ p.bytes.length < maxPath) (other : Location) :
    (fs.follow other q).toExcept = (fs.follow cwd p).toExcept := by
  obtain ⟨hnamed, hstanding⟩ := start_of_absolute grounded absolute
  have hempty : p.bytes ≠ [] := (absolute_eq_ok_iff.1 absolute).1
  obtain ⟨base, rfl, hbase, hplain, hnames⟩ := absolute_base grounded absolute
  have habsolute : (p.absoluteFrom base).isAbsolute = true := Path.isAbsolute_absoluteFrom hbase
  have hzero : 0 ∈ (p.absoluteFrom base).bytes ↔ 0 ∈ p.bytes := Path.zero_mem_absoluteFrom hplain
  unfold follow followTo
  by_cases hp : 0 ∈ p.bytes
  · rw [if_pos (hzero.2 hp), if_pos hp]
  rw [if_neg (hp ∘ hzero.1), if_neg hp]
  by_cases hlong : maxPath ≤ p.bytes.length
  · rw [if_pos (by omega), if_pos hlong]
  rw [if_neg (by omega), if_neg hlong, startOf_of_isAbsolute habsolute,
    if_neg (by simp [Path.bytes_ne_nil_of_isAbsolute habsolute, isStanding]),
    if_neg (by simp [hempty, hstanding]), hops,
    walk_through (proper_of_isNamed hnamed hstanding) hstanding _ _ (by simp) (by simp)]
  exact (walk_undotted maxLinks dots (startOf cwd p)).symm

/-- A path that ends in a name leads, spelled out from the working directory, where it leads from
there. -/
theorem follow_absolute (grounded : fs.IsGrounded cwd) (ends : p.EndsIn folder name)
    (absolute : absolute cwd p = .ok q)
    (lengths : q.bytes.length < maxPath ↔ p.bytes.length < maxPath) (other : Location) :
    (fs.follow other q).toExcept = (fs.follow cwd p).toExcept := by
  obtain ⟨base, hq, -, -, hnames⟩ := absolute_base grounded absolute
  have hends := ends.absoluteFrom base
  rw [hnames, ← hq] at hends
  have hdots : Undotted p.hops (folder.filter (· ≠ Path.dot) ++ [name]) := by
    rw [ends.hops]
    exact .of_filter folder name
  exact follow_spelled grounded absolute hdots
    (hends.hops.trans (List.append_assoc _ _ _)) lengths other

/-- A path can be spelled out, and is short enough to be followed where that is. -/
def HasSpelling (cwd : Location) (p : Path) : Prop :=
  ∃ q, absolute cwd p = .ok q ∧ (q.bytes.length < maxPath ↔ p.bytes.length < maxPath)

/-- A path has the form that it is to be replaced by, and both are short enough to be followed or
neither is: the form without links if it is the path of something, and else the spelled out one. -/
structure IsFaithful (fs : FileSystem) (cwd : Location) (p : Path) : Prop where
  canonical : fs.isPresent cwd p = true →
    ∃ q, fs.canonical cwd p = .ok q ∧ q.bytes.length < maxPath
  spelled : fs.isPresent cwd p = false → HasSpelling cwd p

theorem isPresent_absolute (grounded : fs.IsGrounded cwd) (ends : p.EndsIn folder name)
    (spelled : HasSpelling cwd p) :
    ∃ q, absolute cwd p = .ok q ∧ fs.isPresent cwd q = fs.isPresent cwd p := by
  obtain ⟨q, hq, hlengths⟩ := spelled
  refine ⟨q, hq, ?_⟩
  unfold isPresent
  rw [Walk.isFound_eq_isOk, Walk.isFound_eq_isOk,
    follow_absolute grounded ends hq hlengths cwd]

theorem isPresent_canonical (present : fs.isPresent cwd p = true)
    (canonical : fs.canonical cwd p = .ok q) (short : q.bytes.length < maxPath) (other : Location) :
    fs.isPresent other q = true ∧ fs.settle other q = .ok q := by
  obtain ⟨place, hfound, -⟩ := isPresent_iff.1 present
  have hpresent : fs.isPresent other q = true := by
    rw [isPresent, follow_canonical canonical hfound short other]
    rfl
  refine ⟨hpresent, ?_⟩
  rw [settle, if_pos hpresent]
  exact canonical_again canonical hfound short other

/-- A faithful path that ends in a name has a settled form, and that is present if the path is. -/
theorem isPresent_settle (grounded : fs.IsGrounded cwd) (ends : p.EndsIn folder name)
    (faithful : fs.IsFaithful cwd p) :
    ∃ q, fs.settle cwd p = .ok q ∧ fs.isPresent cwd q = fs.isPresent cwd p := by
  unfold settle
  cases hpresent : fs.isPresent cwd p with
  | true =>
    obtain ⟨q, hq, hshort⟩ := faithful.canonical hpresent
    exact ⟨q, hq, (isPresent_canonical hpresent hq hshort cwd).1⟩
  | false =>
    obtain ⟨q, hq, hsame⟩ := isPresent_absolute grounded ends (faithful.spelled hpresent)
    exact ⟨q, hq, hsame.trans hpresent⟩

end FileSystem

end LaunchPlan
