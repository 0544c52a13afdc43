import LaunchPlan.FileSystem.Copy

/-!
Making entries by path. What is made of several entries is made one by one, so an edit that fails
leaves those it made before.
-/

namespace LaunchPlan

/-- A change of the file system. One that fails keeps what was done until then. -/
abbrev Edit := EStateM Fault FileSystem

namespace FileSystem

/-- The place of the entry that a path names, be it a link, and be it there or not. -/
def namedPlace (fs : FileSystem) (cwd : Location) (p : Path) : Except Fault Location :=
  match p.names.getLast? with
  | none => (fs.follow cwd p).toExcept
  | some name =>
    if 0 ∈ p.bytes then .error .nulInPath
    else if maxPath ≤ p.bytes.length then .error .nameTooLong
    else if name = Path.dot ∨ name = Path.dotDot then (fs.follow cwd p).toExcept
    else
      match (fs.follow cwd ((p.parent?.getD .root).join ⟨Path.dot⟩)).toExcept with
      | .ok directory =>
        if name.length > maxName then .error .nameTooLong else .ok (name :: directory)
      | .error fault => .error fault

/-- The file system with a new entry at a path. Only a directory is made at a path that ends in a
slash, and nothing where no path leads. -/
def insert (fs : FileSystem) (cwd : Location) (p : Path) (entry : Entry) :
    Except Fault FileSystem := do
  let place ← fs.namedPlace cwd p
  if (fs.get? place).isSome then throw .alreadyExists
  if !place.isNamed || (p.endsInSlash && entry ≠ .directory) then throw .notFound
  if fits : entry.Fits place then return fs.add place entry fits
  throw .notFound

/-- The file system with a directory at a path, a new one or the one that is there. -/
def ensureDirectory (fs : FileSystem) (cwd : Location) (p : Path) : Except Fault FileSystem :=
  match fs.insert cwd p .directory with
  | .ok fs => .ok fs
  | .error fault => if fs.isDirectory cwd p then .ok fs else .error fault

/-- The place where opening a path to write makes its file, and whether a file that is there may
be run. -/
def target (fs : FileSystem) (cwd : Location) (p : Path) : Except Fault (Location × Bool) := do
  let place ← fs.writePlace cwd p
  match fs.get? place with
  | some (.file _ executable) => return (place, executable)
  | _ => return (place, false)

end FileSystem

namespace Edit

def ofExcept {α : Type} : Except Fault α → Edit α
  | .ok a => pure a
  | .error fault => throw fault

def insert (cwd : Location) (p : Path) (entry : Entry) : Edit Unit := do
  set (← ofExcept ((← get).insert cwd p entry))

/-- A link at a path. Where it leads is not looked at, but it has to be a path. -/
def link (cwd : Location) (p target : Path) : Edit Unit := do
  if 0 ∈ target.bytes then throw .nulInPath
  if target.bytes = [] then throw .notFound
  if FileSystem.maxPath ≤ target.bytes.length then throw .nameTooLong
  insert cwd p (.link target)

/-- A directory at a path, and at those above it that are missing, `steps` of them at most. -/
def makeUpwards (cwd : Location) : Nat → Path → Edit Unit
  | 0, _ => pure ()
  | steps + 1, p => do
    if p.bytes = [] then return
    match (← get).ensureDirectory cwd p with
    | .ok fs => set fs
    | .error .notFound =>
      match p.parent? with
      | none => throw .notFound
      | some parent =>
        makeUpwards cwd steps parent
        set (← ofExcept ((← get).ensureDirectory cwd p))
    | .error fault => throw fault

/-- A directory at a path, through directories that are made where they are missing. -/
def makeDirectories (cwd : Location) (p : Path) : Edit Unit :=
  makeUpwards cwd (p.bytes.length + 1) p

def makeParents (cwd : Location) (p : Path) : Edit Unit :=
  match p.parent? with
  | some parent => makeDirectories cwd parent
  | none => pure ()

/-- Bytes written to the file of a path. It can be run after that if it could before. -/
def write (cwd : Location) (p : Path) (content : List UInt8) : Edit Unit := do
  let (place, executable) ← ofExcept ((← get).target cwd p)
  modify (·.put place (.file content executable))

/-- A file at a path, with these bytes, that can be run or not. -/
def install (cwd : Location) (p : Path) (content : List UInt8) (executable : Bool) : Edit Unit := do
  let (place, _) ← ofExcept ((← get).target cwd p)
  modify (·.put place (.file content executable))

end Edit

end LaunchPlan
