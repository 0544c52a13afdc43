import LaunchPlan.Proofs.FileSystem.Growth
import LaunchPlan.Proofs.Path.Segments

/-!
The last name of a path, apart from where the path leads: a link that leads nowhere is an entry all
the same. Main statements: `follow_of_vacant`, a path whose last name has no entry leads to the gap
for one, and `Copied.hasEntry_sibling`, a copy that fills one gap leaves the other gaps of its
directory.
-/

namespace LaunchPlan

/-- How a walk ends that goes one name further, to a name that has no entry. -/
def Walk.enter (name : Name) : Walk → Walk
  | .found directory =>
    if name.length > FileSystem.maxName then .failed .nameTooLong
    else .missing (name :: directory) []
  | .missing place rest => .missing place (rest.dropLast ++ [name])
  | .blocked place rest => .blocked place (rest.dropLast ++ [name])
  | .failed fault => .failed fault

/-- Who enters a name that has no entry finds nothing, and misses that name and no other. -/
theorem Walk.eq_found_of_enter {w : Walk} {name : Name} {place : Location}
    (h : w.enter name = .missing place []) : ∃ directory, w = .found directory ∧
      place = name :: directory := by
  cases w with
  | found directory =>
    simp only [enter] at h
    split at h
    · cases h
    · cases h
      exact ⟨directory, rfl, rfl⟩
  | missing other rest => simp [enter] at h
  | blocked other rest => cases h
  | failed fault => cases h

theorem Walk.isFound_enter (w : Walk) (name : Name) : (w.enter name).isFound = false := by
  cases w with
  | found directory =>
    simp only [enter]
    split
    · rfl
    · rfl
  | missing | blocked | failed => rfl

namespace FileSystem

variable {fs : FileSystem} {cwd : Location} {p q : Path} {folder : List Name} {name other : Name}

/-- Where the directory part of a path leads. The last name is not looked up, but what it is to be
looked up in has to be a directory. -/
def followFolder (fs : FileSystem) (cwd : Location) (p : Path) : Walk :=
  if 0 ∈ p.bytes then .failed .nulInPath
  else if maxPath ≤ p.bytes.length then .failed .nameTooLong
  else if p.bytes = [] ∨ fs.isStanding (startOf cwd p) = false then .failed .notFound
  else fs.walk .find maxLinks (startOf cwd p) (p.names.dropLast ++ [Path.dot])

/-- Whether the last name of a path has an entry, be it a link that leads nowhere. -/
def hasEntry (fs : FileSystem) (cwd : Location) (p : Path) : Bool :=
  match fs.followFolder cwd p, p.names.getLast? with
  | .found directory, some name => (fs.get? (name :: directory)).isSome
  | _, _ => false

theorem hasEntry_of_found {directory : Location} (ends : p.EndsIn folder name)
    (found : fs.followFolder cwd p = .found directory) :
    fs.hasEntry cwd p = (fs.get? (name :: directory)).isSome := by
  simp [hasEntry, found, ends.names]

theorem walkNames_enter {onLink toFolder : Location → Path → List Name → Walk}
    (ends : p.EndsIn folder name)
    (link : ∀ here target rest,
      (∀ directory, toFolder here target (rest ++ [Path.dot]) = .found directory →
        fs.get? (name :: directory) = none) →
      onLink here target (rest ++ [name])
        = (toFolder here target (rest ++ [Path.dot])).enter name)
    (here : Location) (names : List Name)
    (vacant : ∀ directory,
      fs.walkNames .find toFolder here (names ++ [Path.dot]) = .found directory →
        fs.get? (name :: directory) = none) :
    fs.walkNames .find onLink here (names ++ [name])
      = (fs.walkNames .find toFolder here (names ++ [Path.dot])).enter name := by
  induction names generalizing here with
  | nil =>
    have hhere : fs.walkNames .find toFolder here ([] ++ [Path.dot]) = .found here := by
      simp [walkNames]
    rw [hhere]
    simp only [List.nil_append, walkNames, ends.nonempty, ends.notDot, ends.notDotDot, or_self,
      if_false, reduceCtorEq, false_and, vacant here hhere, Walk.enter]
  | cons first rest ih =>
    -- The last name is still to come, so both walks do the same with this one.
    simp only [List.cons_append, walkNames, reduceCtorEq, false_and, if_false] at vacant ⊢
    split
    · next hskip =>
      simp only [if_pos hskip] at vacant
      exact ih here vacant
    next hskip =>
    simp only [if_neg hskip] at vacant
    split
    · next hup =>
      simp only [if_pos hup] at vacant
      exact ih here.tail vacant
    next hup =>
    simp only [if_neg hup] at vacant
    split
    · rfl
    next hlong =>
    simp only [if_neg hlong] at vacant
    cases hentry : fs.get? (first :: here) with
    | none => simp [Walk.enter]
    | some entry =>
      simp only [hentry] at vacant
      cases entry with
      | directory => exact ih (first :: here) vacant
      | link target => exact link here target rest vacant
      | file _ _ => simp [Walk.enter]
      | device => simp [Walk.enter]

theorem walk_enter (ends : p.EndsIn folder name) (links : Nat) (here : Location)
    (names : List Name)
    (vacant : ∀ directory, fs.walk .find links here (names ++ [Path.dot]) = .found directory →
      fs.get? (name :: directory) = none) :
    fs.walk .find links here (names ++ [name])
      = (fs.walk .find links here (names ++ [Path.dot])).enter name := by
  induction links generalizing here names with
  | zero => exact walkNames_enter ends (fun _ _ _ _ => rfl) here names vacant
  | succ links ih =>
    refine walkNames_enter ends (fun place target rest hvacant => ?_) here names vacant
    -- What a link says goes before the names that remain, so the last name stays the last.
    rw [← List.append_assoc] at hvacant ⊢
    rw [← List.append_assoc]
    exact ih _ _ hvacant

/-- A path whose last name has no entry leads to the gap for one, if it gets that far. -/
theorem follow_of_vacant (ends : p.EndsIn folder name) (vacant : fs.hasEntry cwd p = false) :
    fs.follow cwd p = (fs.followFolder cwd p).enter name := by
  have hgap : ∀ directory, fs.followFolder cwd p = .found directory →
      fs.get? (name :: directory) = none := by
    intro directory hfound
    rw [hasEntry_of_found ends hfound] at vacant
    simpa using vacant
  unfold followFolder at hgap ⊢
  unfold follow followTo
  split
  · rfl
  next hzero =>
  split
  · rfl
  next hlong =>
  split
  · rfl
  next hstart =>
  simp only [if_neg hzero, if_neg hlong, if_neg hstart] at hgap
  rw [ends.names, List.dropLast_concat] at hgap ⊢
  rw [ends.hops]
  exact walk_enter ends _ _ _ hgap

theorem not_isPresent_of_vacant (ends : p.EndsIn folder name)
    (vacant : fs.hasEntry cwd p = false) : fs.isPresent cwd p = false := by
  rw [isPresent, follow_of_vacant ends vacant, Walk.isFound_enter]

/-- Paths that start at the same place and go through the same directories part only at their last
names. -/
theorem followFolder_sibling (hp : p.EndsIn folder name) (hq : q.EndsIn folder other)
    (start : startOf cwd q = startOf cwd p) {directory : Location}
    (found : fs.followFolder cwd p = .found directory) :
    fs.followFolder cwd q = .found directory ∨ ∃ fault, fs.followFolder cwd q = .failed fault := by
  have hwalk : fs.walk .find maxLinks (startOf cwd p) (folder ++ [Path.dot]) = .found directory := by
    unfold followFolder at found
    split at found
    · cases found
    split at found
    · cases found
    split at found
    · cases found
    · rwa [hp.names, List.dropLast_concat] at found
  unfold followFolder
  split
  · exact .inr ⟨_, rfl⟩
  split
  · exact .inr ⟨_, rfl⟩
  split
  · exact .inr ⟨_, rfl⟩
  · rw [hq.names, List.dropLast_concat, start]
    exact .inl hwalk

theorem followFolder_add {gap : Location} {content : List UInt8} {executable : Bool}
    {fits : (Entry.file content executable).Fits gap} (h : fs.get? gap = none) (cwd : Location)
    (p : Path) :
    (fs.add gap (.file content executable) fits).followFolder cwd p
      = (fs.followFolder cwd p).fill gap := by
  simp only [followFolder, isStanding_add h]
  split
  · rfl
  split
  · rfl
  split
  · rfl
  · exact walk_add h _ _ _

/-- A copy whose target had no entry leaves the other gaps of its directory. -/
theorem Copied.hasEntry_sibling {source target : Path} {place : Location} {file : Entry}
    {before after : FileSystem} (copied : Copied cwd source target place file before after)
    (htarget : target.EndsIn folder name) (hq : q.EndsIn folder other) (ne : other ≠ name)
    (start : startOf cwd q = startOf cwd target) (vacant : before.hasEntry cwd target = false)
    (absent : before.hasEntry cwd q = false) : after.hasEntry cwd q = false := by
  have hmissing := copied.target
  rw [follow_of_vacant htarget vacant] at hmissing
  obtain ⟨directory, hfolder, hplace⟩ := Walk.eq_found_of_enter hmissing
  obtain ⟨content, executable, rfl⟩ := copied.isFile
  have hlater : after.followFolder cwd q = (before.followFolder cwd q).fill place := by
    obtain ⟨_, rfl⟩ := copied.after
    exact followFolder_add copied.gap cwd q
  rcases followFolder_sibling htarget hq start hfolder with hfound | ⟨fault, hfailed⟩
  · rw [hasEntry_of_found hq hfound] at absent
    rw [hfound, Walk.fill_found] at hlater
    rw [hasEntry_of_found hq hlater, copied.get?, if_neg (by simp [hplace, ne])]
    exact absent
  · rw [hfailed, Walk.fill_failed] at hlater
    simp [hasEntry, hlater]

/-- A path leads to a regular file with this content. -/
def IsFile (fs : FileSystem) (cwd : Location) (p : Path) (content : List UInt8) : Prop :=
  ∃ place executable, fs.follow cwd p = .found place ∧
    fs.get? place = some (.file content executable)

theorem Grows.isFile {before after : FileSystem} {content : List UInt8}
    (grows : before.Grows after) (h : before.IsFile cwd p content) :
    after.IsFile cwd p content := by
  obtain ⟨place, executable, hfound, hfile⟩ := h
  exact ⟨place, executable, grows.follow_found hfound, grows.get? hfile⟩

/-- A copy holds what it was made from. -/
theorem Copied.isFile_target {source target : Path} {place : Location} {file : Entry}
    {before after : FileSystem} (copied : Copied cwd source target place file before after) :
    ∃ content, before.IsFile cwd source content ∧ after.IsFile cwd target content := by
  obtain ⟨content, executable, hfile⟩ := copied.isFile
  obtain ⟨origin, hfound, hentry⟩ := copied.source
  rw [hfile] at hentry
  refine ⟨content, ⟨origin, executable, hfound, hentry⟩, place, executable, copied.follow_target, ?_⟩
  rw [copied.get?, if_pos rfl, hfile]

end FileSystem

end LaunchPlan
