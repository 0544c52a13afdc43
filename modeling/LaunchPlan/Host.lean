import LaunchPlan.FileSystem.Program
import LaunchPlan.Network.Dice
import LaunchPlan.Network.Port

/-!
The machine that launches: its files, working directory, ports, programs and random digits, and
what it answers about itself.
-/

namespace LaunchPlan

structure Host where
  files : FileSystem
  cwd : Location
  held : List Port
  /-- The directories that programs are looked up in, if there is a search path. -/
  searchPath : Option (List Path)
  /-- What `~` stands for at the start of such a directory. -/
  home : Path
  dice : Dice

namespace Host

def isPresent (h : Host) (p : Path) : Bool := h.files.isPresent h.cwd p

/-- A directory of the search path with its `~` replaced. -/
def expandHome (h : Host) (dir : Path) : Path :=
  if dir.segments.head? = some Path.tilde then h.home.join (Path.ofSegments dir.names.tail)
  else dir

/-- Where a program of a name would be in a directory of the search path. The path is made absolute
where there is a working directory to start from. -/
def candidate (h : Host) (name : String) (dir : Path) : Path :=
  let p := (h.expandHome dir).join (.ofString name)
  match p.isAbsolute, FileSystem.workingPath h.cwd with
  | false, .ok base => p.absoluteFrom base
  | _, _ => p

/-- The program of a name: the first on the search path that may be run. -/
def findProgram (h : Host) (name : String) : Except SearchFault Program :=
  match h.searchPath with
  | none => .error .noSearchPath
  | some dirs =>
    let found := dirs.findSome? fun dir => h.files.programAt h.cwd (h.candidate name dir)
    match found with
    | some program => .ok program
    | none => .error .notFound

/-- The place of a directory that no path leads to, `depth` names below `parent`. -/
def unnamed (parent : Location) (depth : Nat) : Location := List.replicate depth [] ++ parent

theorem fits_unnamed (parent : Location) (depth : Nat) :
    Entry.directory.Fits (unnamed parent (depth + 1)) where
  proper name hname hne := by
    obtain rfl : name = [] := by simpa [unnamed, List.replicate_succ, eq_comm] using hname
    exact absurd rfl hne
  readable target htarget := by cases htarget

/-- The host without what lies at a place. If the working directory goes with it, it stays in use,
empty, and no path leads to it; `..` still leads out of it. -/
def remove (h : Host) (place : Location) : Host :=
  let files := h.files.remove place
  if place.isSuffixOf h.cwd then
    let depth := h.cwd.length - place.length + 1
    { h with
      files := (List.range depth).foldl
        (fun fs i => fs.add (unnamed place.tail (i + 1)) .directory (fits_unnamed place.tail i)) files
      cwd := unnamed place.tail depth }
  else { h with files := files }

end Host

end LaunchPlan
