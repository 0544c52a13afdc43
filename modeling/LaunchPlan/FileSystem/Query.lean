import LaunchPlan.FileSystem.Walk

/-!
Questions to the file system about a path, read in a working directory. None of them changes
anything. Main statement: `isPresent_iff`, a path is present exactly when it leads to an entry
that is no link.
-/

namespace LaunchPlan.FileSystem

/-- Whether a path leads to an entry; any fault on the way counts as no. -/
def isPresent (fs : FileSystem) (cwd : Location) (p : Path) : Bool :=
  (fs.follow cwd p).isFound

def isDirectory (fs : FileSystem) (cwd : Location) (p : Path) : Bool :=
  match fs.follow cwd p with
  | .found place => fs.get? place = some .directory
  | _ => false

/-- What a directory gives when it is read: its names in no particular order, up to where the reading
breaks off. -/
def openDirectory (fs : FileSystem) (cwd : Location) (p : Path) :
    Except Fault (List (Except Fault Name)) :=
  match fs.follow cwd p with
  | .found place =>
    if fs.get? place = some .directory then
      match fs.bar? place with
      | none => .ok ((fs.children place).map .ok)
      | some (.closed fault) => .error fault
      | some (.broken after fault) =>
        .ok (((fs.children place).take after).map .ok ++ [.error fault])
    else .error .notDirectory
  | w => w.toExcept.map fun _ => []

/-- The names in the directory that a path leads to, or what fails first when they are read. -/
def list (fs : FileSystem) (cwd : Location) (p : Path) : Except Fault (List Name) := do
  (← fs.openDirectory cwd p).mapM id

def read (fs : FileSystem) (cwd : Location) (p : Path) : Except Fault (List UInt8) :=
  match fs.follow cwd p with
  | .found place =>
    match fs.get? place with
    | some (.file content _) => .ok content
    | some .device => .ok []
    | some .directory => .error .isDirectory
    | some (.link _) | none => .error .notFound
  | w => w.toExcept.map fun _ => []

/-- The path of the working directory, which a removed one no longer has. -/
def workingPath (cwd : Location) : Except Fault Path :=
  match cwd.path? with
  | some p => .ok p
  | none => .error .notFound

def absolute (cwd : Location) (p : Path) : Except Fault Path :=
  if p.bytes = [] then .error .emptyPath
  else if p.isAbsolute then .ok (p.absoluteFrom .root)
  else (workingPath cwd).map fun base => p.absoluteFrom base

/-- The one path without links, `.` and `..` that leads where `p` leads. -/
def canonical (fs : FileSystem) (cwd : Location) (p : Path) : Except Fault Path := do
  let _ ← workingPath (startOf cwd p)
  workingPath (← (fs.followTo .name cwd p).toExcept)

/-- The canonical path of what is present, and else the path made absolute by its spelling. -/
def settle (fs : FileSystem) (cwd : Location) (p : Path) : Except Fault Path :=
  if fs.isPresent cwd p then fs.canonical cwd p else absolute cwd p

theorem isPresent_iff {fs : FileSystem} {cwd : Location} {p : Path} :
    fs.isPresent cwd p = true ↔ ∃ place, fs.follow cwd p = .found place ∧ fs.IsEnd place := by
  unfold isPresent
  constructor
  · intro h
    cases hw : fs.follow cwd p with
    | found place => exact ⟨place, rfl, follow_found hw⟩
    | missing _ _ | blocked _ _ | failed _ => simp [hw, Walk.isFound] at h
  · rintro ⟨place, hw, -⟩
    simp [hw, Walk.isFound]

end LaunchPlan.FileSystem
