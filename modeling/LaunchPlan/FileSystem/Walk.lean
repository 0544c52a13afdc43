import LaunchPlan.FileSystem.Basic
import LaunchPlan.FileSystem.Fault

/-!
Where a path leads. A walk goes from name to name, up at `..`, and on at what a link says, through
forty links at most. Main statements: `follow_found`, a walk that arrives has found an entry that
is no link, below directories only, `follow_missing`, a walk that misses a name stands in a
directory that lacks it, and `followTo_eq`, a walk goes the same way whatever it is for, unless it
fails as only its aim makes it fail.
-/

namespace LaunchPlan

inductive Walk where
  | found (place : Location)
  /-- There is no entry at `place`; its directory exists, and `rest` was still to go. -/
  | missing (place : Location) (rest : List Name)
  /-- What lies at `place` is no directory, and `rest` was still to go. -/
  | blocked (place : Location) (rest : List Name)
  | failed (fault : Fault)
  deriving DecidableEq

namespace Walk

def toExcept : Walk → Except Fault Location
  | .found place => .ok place
  | .missing _ _ => .error .notFound
  | .blocked _ _ => .error .notDirectory
  | .failed fault => .error fault

def isFound : Walk → Bool
  | .found _ => true
  | _ => false

end Walk

inductive Aim where
  | find
  | make
  /-- To find an entry together with the path of its place. -/
  | name
  deriving DecidableEq

/-- What a walk fails with when it cannot be made for its aim. -/
def Aim.refusal : Aim → Fault
  | .make => .isDirectory
  | .find | .name => .nameTooLong

namespace FileSystem

/-- A path of this many bytes is too long. -/
def maxPath : Nat := 4096

def maxLinks : Nat := 40

/-- Whether nothing but a slash follows the last name, which so has to name a directory. -/
def asksDirectory (rest : List Name) : Bool := rest ≠ [] && rest.all (· = [])

/-- Whether what follows a name asks for a directory there: only slashes and dots do, or `..` is the
first that goes anywhere. -/
def checksDirectory (rest : List Name) : Bool :=
  rest ≠ [] && (rest.find? fun name => name ≠ [] && name ≠ Path.dot).all (· = Path.dotDot)

/-- How long the path is by which an entry is looked up when its path is what is wanted. There is a
slash at the end where a directory is asked for, but a link is seen without it. -/
def lookupLength (fs : FileSystem) (place : Location) (rest : List Name) : Nat :=
  match fs.get? place with
  | some (.link _) => place.pathLength
  | _ => place.pathLength + (checksDirectory rest).toNat

/-- The walk along `names` from the directory `here`. A link is handed to `onLink` with the
directory it lies in and the names that remain. A last name that has to name a directory is not
even looked for when a file is to be made, and no place is gone to that would be looked up by too
long a path when the path is what is wanted. -/
def walkNames (fs : FileSystem) (aim : Aim) (onLink : Location → Path → List Name → Walk) :
    Location → List Name → Walk
  | here, [] => .found here
  | here, name :: rest =>
    if name = [] ∨ name = Path.dot then walkNames fs aim onLink here rest
    else if name = Path.dotDot then walkNames fs aim onLink here.tail rest
    else if aim = .make ∧ asksDirectory rest then .failed .isDirectory
    else if name.length > FileSystem.maxName then .failed .nameTooLong
    else if aim = .name ∧ maxPath ≤ fs.lookupLength (name :: here) rest then .failed .nameTooLong
    else
      match fs.get? (name :: here) with
      | none => .missing (name :: here) rest
      | some .directory => walkNames fs aim onLink (name :: here) rest
      | some (.link target) => onLink here target rest
      | some _ =>
        if rest = [] then .found (name :: here) else .blocked (name :: here) rest

def startOf (cwd : Location) (p : Path) : Location :=
  if p.isAbsolute then [] else cwd

/-- The walk along `names` that may still go through `links` links. -/
def walk (fs : FileSystem) (aim : Aim) : Nat → Location → List Name → Walk
  | 0 => walkNames fs aim fun _ _ _ => .failed .tooManyLinks
  | links + 1 => walkNames fs aim fun here target rest =>
      walk fs aim links (startOf here target) (target.hops ++ rest)

/-- Whether a place and all those above it are directories. -/
def isStanding (fs : FileSystem) : Location → Bool
  | [] => true
  | name :: parent => fs.get? (name :: parent) = some .directory && isStanding fs parent

/-- Where a path leads when it is read in the working directory `cwd`. -/
def followTo (fs : FileSystem) (aim : Aim) (cwd : Location) (p : Path) : Walk :=
  if 0 ∈ p.bytes then .failed .nulInPath
  else if maxPath ≤ p.bytes.length then .failed .nameTooLong
  else if p.bytes = [] ∨ fs.isStanding (startOf cwd p) = false then .failed .notFound
  else fs.walk aim maxLinks (startOf cwd p) p.hops

abbrev follow (fs : FileSystem) (cwd : Location) (p : Path) : Walk := fs.followTo .find cwd p

/-- A place where a walk may end: below directories, with an entry that is no link. -/
structure IsEnd (fs : FileSystem) (place : Location) : Prop where
  standing : fs.isStanding place.tail = true
  entry : ∃ e, fs.get? place = some e ∧ ∀ target, e ≠ .link target

/-- A place where an entry could be made: in a directory that has none of this name. -/
structure IsGap (fs : FileSystem) (place : Location) : Prop where
  standing : fs.isStanding place.tail = true
  entry : fs.get? place = none

theorem isStanding_tail {fs : FileSystem} {here : Location} (h : fs.isStanding here = true) :
    fs.isStanding here.tail = true := by
  cases here with
  | nil => rfl
  | cons name parent => exact (Bool.and_eq_true_iff.1 h).2

theorem get?_of_isStanding {fs : FileSystem} {here : Location}
    (h : fs.isStanding here = true) : fs.get? here = some .directory := by
  cases here with
  | nil => rfl
  | cons name parent => exact of_decide_eq_true (Bool.and_eq_true_iff.1 h).1

theorem IsEnd.of_isStanding {fs : FileSystem} {here : Location}
    (h : fs.isStanding here = true) : fs.IsEnd here :=
  ⟨isStanding_tail h, _, get?_of_isStanding h, by simp⟩

/-- What a property of outcomes needs to hold of every walk: it holds at each way to end, and of
what is done with a link. -/
theorem walkNames_induct {fs : FileSystem} {aim : Aim}
    {onLink : Location → Path → List Name → Walk} {P : Walk → Prop}
    (found : ∀ place, fs.IsEnd place → P (.found place))
    (missing : ∀ place rest, fs.IsGap place → P (.missing place rest))
    (blocked : ∀ place rest, fs.IsEnd place → P (.blocked place rest))
    (failed : ∀ fault, P (.failed fault))
    (link : ∀ here target rest, fs.isStanding here = true → P (onLink here target rest))
    (here : Location) (names : List Name) (h : fs.isStanding here = true) :
    P (fs.walkNames aim onLink here names) := by
  induction names generalizing here with
  | nil => exact found here (.of_isStanding h)
  | cons name rest ih =>
    simp only [walkNames]
    split
    · exact ih here h
    split
    · exact ih here.tail (isStanding_tail h)
    split
    · exact failed _
    split
    · exact failed _
    split
    · exact failed _
    split
    · next hn => exact missing _ _ ⟨h, hn⟩
    · next hd => exact ih _ (by simp [isStanding, hd, h])
    · exact link _ _ _ h
    · next e hdir hlink he =>
      have hend : fs.IsEnd (name :: here) := ⟨h, e, he, fun t ht => hlink t ht⟩
      split
      · exact found _ hend
      · exact blocked _ _ hend

theorem walk_induct {fs : FileSystem} {aim : Aim} {P : Walk → Prop}
    (found : ∀ place, fs.IsEnd place → P (.found place))
    (missing : ∀ place rest, fs.IsGap place → P (.missing place rest))
    (blocked : ∀ place rest, fs.IsEnd place → P (.blocked place rest))
    (failed : ∀ fault, P (.failed fault))
    (links : Nat) (here : Location) (names : List Name) (h : fs.isStanding here = true) :
    P (fs.walk aim links here names) := by
  induction links generalizing here names with
  | zero =>
    exact walkNames_induct found missing blocked failed (fun _ _ _ _ => failed _) here names h
  | succ links ih =>
    refine walkNames_induct found missing blocked failed (fun place target rest hp => ?_)
      here names h
    refine ih _ _ ?_
    unfold startOf
    split
    · rfl
    · exact hp

theorem followTo_induct {fs : FileSystem} {aim : Aim} {P : Walk → Prop}
    (found : ∀ place, fs.IsEnd place → P (.found place))
    (missing : ∀ place rest, fs.IsGap place → P (.missing place rest))
    (blocked : ∀ place rest, fs.IsEnd place → P (.blocked place rest))
    (failed : ∀ fault, P (.failed fault))
    (cwd : Location) (p : Path) : P (fs.followTo aim cwd p) := by
  unfold followTo
  split
  · exact failed _
  split
  · exact failed _
  split
  · exact failed _
  · next h =>
    exact walk_induct found missing blocked failed _ _ _
      (by simpa using fun hs => h (.inr hs))

theorem follow_found {fs : FileSystem} {aim : Aim} {cwd place : Location} {p : Path}
    (h : fs.followTo aim cwd p = .found place) : fs.IsEnd place := by
  have key := @followTo_induct fs aim (fun w => w = .found place → fs.IsEnd place)
    (fun _ hp he => by cases he; exact hp) (by simp) (by simp) (by simp) cwd p
  exact key h

theorem follow_missing {fs : FileSystem} {aim : Aim} {cwd place : Location} {p : Path}
    {rest : List Name} (h : fs.followTo aim cwd p = .missing place rest) : fs.IsGap place := by
  have key := @followTo_induct fs aim (fun w => w = .missing place rest → fs.IsGap place)
    (by simp) (fun _ _ hp he => by cases he; exact hp) (by simp) (by simp) cwd p
  exact key h

theorem walkNames_eq {fs : FileSystem} {aim : Aim}
    {onLink toFind : Location → Path → List Name → Walk}
    (link : ∀ here target rest, onLink here target rest = .failed aim.refusal ∨
      onLink here target rest = toFind here target rest)
    (here : Location) (names : List Name) :
    fs.walkNames aim onLink here names = .failed aim.refusal ∨
      fs.walkNames aim onLink here names = fs.walkNames .find toFind here names := by
  induction names generalizing here with
  | nil => exact .inr rfl
  | cons name rest ih =>
    simp only [walkNames, reduceCtorEq, false_and, if_false]
    split
    · exact ih here
    split
    · exact ih here.tail
    split
    · next h => rw [h.1]; exact .inl rfl
    split
    · exact .inr rfl
    split
    · next h => rw [h.1]; exact .inl rfl
    cases fs.get? (name :: here) with
    | none => exact .inr rfl
    | some e =>
      cases e with
      | directory => exact ih _
      | link target => exact link here target rest
      | file _ _ => exact .inr rfl
      | device => exact .inr rfl

theorem walk_eq {fs : FileSystem} {aim : Aim} (links : Nat) (here : Location)
    (names : List Name) :
    fs.walk aim links here names = .failed aim.refusal ∨
      fs.walk aim links here names = fs.walk .find links here names := by
  induction links generalizing here names with
  | zero => exact walkNames_eq (fun _ _ _ => .inr rfl) here names
  | succ links ih => exact walkNames_eq (fun _ _ _ => ih _ _) here names

theorem followTo_eq (fs : FileSystem) (aim : Aim) (cwd : Location) (p : Path) :
    fs.followTo aim cwd p = .failed aim.refusal ∨ fs.followTo aim cwd p = fs.follow cwd p := by
  unfold follow followTo
  split
  · exact .inr rfl
  split
  · exact .inr rfl
  split
  · exact .inr rfl
  · exact walk_eq _ _ _

end FileSystem

end LaunchPlan
