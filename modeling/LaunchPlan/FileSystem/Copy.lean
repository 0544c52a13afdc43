import LaunchPlan.FileSystem.Query

/-!
Copying a regular file. The source is opened before the target is made, so a fault of the source
wins. The target is where its path leads, through a dangling link if there is one.
-/

namespace LaunchPlan.FileSystem

def openFile (fs : FileSystem) (cwd : Location) (p : Path) : Except Fault Entry := do
  let place ← (fs.follow cwd p).toExcept
  match fs.get? place with
  | some (.file content executable) => .ok (.file content executable)
  | _ => .error .notRegularFile

/-- The place where opening a path to write makes its file or finds it. -/
def writePlace (fs : FileSystem) (cwd : Location) (p : Path) : Except Fault Location :=
  match fs.followTo .make cwd p with
  | .found place => if fs.get? place = some .directory then .error .isDirectory else .ok place
  | .missing place rest => if rest = [] ∧ place.isNamed then .ok place else .error .notFound
  | .blocked _ _ => .error .notDirectory
  | .failed fault => .error fault

/-- The file system after a file has been written to a place. A device takes what is written and
stays; no path leads to a place where no file can lie. -/
def put (fs : FileSystem) (place : Location) (file : Entry) : FileSystem :=
  if fs.get? place = some .device then fs
  else if fits : file.Fits place then fs.add place file fits
  else fs

def copy (fs : FileSystem) (cwd : Location) (source target : Path) : Except Fault FileSystem := do
  let file ← fs.openFile cwd source
  let place ← fs.writePlace cwd target
  return fs.put place file

end LaunchPlan.FileSystem
