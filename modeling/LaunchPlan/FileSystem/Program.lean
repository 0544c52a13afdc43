import LaunchPlan.FileSystem.Query

/-!
What running a file does. A file that can be run is a script, whose first line names its
interpreter: the shell, or another script. Of the shell's language there are the commands that a
probe is made of, one after the other, and a command it does not know is one it does not find.
-/

namespace LaunchPlan

inductive Program where
  | exits (status : UInt8)
  | killed
  | unstartable (fault : Fault)
  deriving DecidableEq

namespace Shell

/-- Where the shell is. It lies outside the file system. -/
def path : Path := .ofString "/bin/sh"

def newline : UInt8 := 0x0A

def hash : UInt8 := 0x23

def bang : UInt8 := 0x21

def semicolon : UInt8 := 0x3B

def isBlank (b : UInt8) : Bool := b = 0x20 || b = 0x09

def words (bytes : List UInt8) : List (List UInt8) :=
  (bytes.splitOnP isBlank).filter (· ≠ [])

/-- A line up to its comment, which starts where a word could start. -/
def uncommented (atStart : Bool) : List UInt8 → List UInt8
  | [] => []
  | b :: rest =>
    if atStart && b = hash then [] else b :: uncommented (isBlank b || b = semicolon) rest

/-- The commands of a script, each as its words. -/
def commands (script : List UInt8) : List (List String) :=
  (script.splitOn newline).flatMap fun line =>
    ((uncommented true line).splitOn semicolon).map fun command =>
      (words command).map Text.display

def decimal? (word : String) : Option Nat :=
  if word = "" then none
  else word.toList.foldlM (fun n c => if c.isDigit then some (10 * n + (c.toNat - 48)) else none) 0

def misuse : UInt8 := 2

def notFound : UInt8 := 127

/-- What a command leaves after one that left `status`: its own status, or the end of the script.
-/
def runCommand (status : UInt8) : List String → Except Program UInt8
  | [] => .ok status
  | ["exit"] => .error (.exits status)
  | "exit" :: word :: _ => .error (.exits (((decimal? word).map UInt8.ofNat).getD misuse))
  | ["kill", "-9", "$$"] | ["kill", "-KILL", "$$"] => .error .killed
  | ":" :: _ | "true" :: _ | "echo" :: _ => .ok 0
  | "false" :: _ => .ok 1
  | _ => .ok notFound

/-- What the shell does with a script: it ends with the status of the last command, unless a
command ends it before. -/
def run (script : List UInt8) : Program :=
  match (commands script).foldlM runCommand 0 with
  | .ok status => .exits status
  | .error program => program

end Shell

namespace FileSystem

def interpreter? : List UInt8 → Option Path
  | a :: b :: rest =>
    if a = Shell.hash ∧ b = Shell.bang then
      ((Shell.words (rest.takeWhile (· ≠ Shell.newline))).head?).map Path.mk
    else none
  | _ => none

/-- How many scripts may interpret one another. -/
def maxInterpreters : Nat := 4

/-- What running a file of this content does. Its interpreter, if it is a script, may have
`depth` more scripts to interpret it. -/
def runContent (fs : FileSystem) (cwd : Location) : Nat → List UInt8 → Program
  | depth, content =>
    match interpreter? content with
    | none => .unstartable .notExecutable
    | some p =>
      if p = Shell.path then Shell.run content
      else
        match depth, (fs.follow cwd p).toExcept with
        | 0, _ => .unstartable .tooManyLinks
        | _, .error fault => .unstartable fault
        | depth + 1, .ok place =>
          match fs.get? place with
          | some (.file content true) => runContent fs cwd depth content
          | _ => .unstartable .permissionDenied

/-- What running the file that a path leads to does, if it may be run. -/
def programAt (fs : FileSystem) (cwd : Location) (p : Path) : Option Program :=
  match fs.follow cwd p with
  | .found place =>
    match fs.get? place with
    | some (.file content true) => some (fs.runContent cwd maxInterpreters content)
    | _ => none
  | _ => none

end FileSystem

end LaunchPlan
