import LaunchPlan.FileSystem.Fault
import LaunchPlan.Path

/-!
A file system as a finite map from places to entries that can lie there. Main statements: `get?_add`,
adding an entry changes what is found at its place and nowhere else, and `mem_children_iff`, a
directory holds the names of the entries that lie in it.
-/

namespace LaunchPlan

/-- The longest that a name may be. -/
def FileSystem.maxName : Nat := 255

/-- A name that can be spelled in a path. -/
def Name.IsPlain (name : Name) : Prop := 0 ∉ name ∧ Path.slash ∉ name

instance (name : Name) : Decidable name.IsPlain := inferInstanceAs (Decidable (_ ∧ _))

/-- What an entry can be called. -/
structure Name.IsProper (name : Name) : Prop where
  nonempty : name ≠ []
  notDot : name ≠ Path.dot
  notDotDot : name ≠ Path.dotDot
  short : name.length ≤ FileSystem.maxName
  plain : name.IsPlain

instance (name : Name) : Decidable name.IsProper :=
  decidable_of_iff (name ≠ [] ∧ name ≠ Path.dot ∧ name ≠ Path.dotDot ∧
      name.length ≤ FileSystem.maxName ∧ name.IsPlain)
    ⟨fun ⟨h₁, h₂, h₃, h₄, h₅⟩ => ⟨h₁, h₂, h₃, h₄, h₅⟩,
      fun h => ⟨h.nonempty, h.notDot, h.notDotDot, h.short, h.plain⟩⟩

inductive Entry where
  | file (content : List UInt8) (executable : Bool)
  | directory
  | link (target : Path)
  /-- A character device, which reads as empty. -/
  | device
  deriving DecidableEq

def Entry.target? : Entry → Option Path
  | .link target => some target
  | _ => none

/-- The names that lead from the root to an entry, the last one first. No path leads to an entry
below an empty name: such a place is that of a directory which was removed while it was in use. -/
abbrev Location := List Name

def Location.isNamed (here : Location) : Bool := here.all (· ≠ [])

/-- The path of a place; an entry that was removed has none. -/
def Location.path? (here : Location) : Option Path :=
  if !here.isNamed then none
  else if here = [] then some Path.root
  else some (Path.ofSegments ([] :: here.reverse))

/-- How many bytes the path of a place has, the root's apart. -/
def Location.pathLength (here : Location) : Nat :=
  here.foldr (fun name n => name.length + 1 + n) 0

/-- An entry that can lie at a place. The place has a proper name, unless a directory was removed
from there, and where a link leads can be read. -/
structure Entry.Fits (place : Location) (entry : Entry) : Prop where
  proper : ∀ name ∈ place.head?, name ≠ [] → name.IsProper
  readable : ∀ target ∈ entry.target?, 0 ∉ target.bytes

instance (place : Location) (entry : Entry) : Decidable (entry.Fits place) :=
  decidable_of_iff ((∀ name ∈ place.head?, name ≠ [] → name.IsProper) ∧
      ∀ target ∈ entry.target?, 0 ∉ target.bytes)
    ⟨fun ⟨h₁, h₂⟩ => ⟨h₁, h₂⟩, fun h => ⟨h.proper, h.readable⟩⟩

/-- What keeps a directory from being listed. -/
inductive Bar where
  /-- The directory cannot be opened. -/
  | closed (fault : Fault)
  /-- Reading the directory breaks off after some of its names. -/
  | broken (after : Nat) (fault : Fault)
  deriving DecidableEq

def Bar.fault : Bar → Fault
  | .closed fault | .broken _ fault => fault

structure FileSystem where
  entries : List (Location × Entry)
  fits : ∀ e ∈ entries, e.2.Fits e.1
  bars : List (Location × Bar)

namespace FileSystem

/-- What lies at a place. The root is always a directory. -/
def get? (fs : FileSystem) : Location → Option Entry
  | [] => some .directory
  | name :: parent => fs.entries.lookup (name :: parent)

/-- What keeps the directory at a place from being listed. -/
def bar? (fs : FileSystem) (place : Location) : Option Bar := fs.bars.lookup place

def add (fs : FileSystem) (here : Location) (entry : Entry) (fits : entry.Fits here) :
    FileSystem where
  entries := (here, entry) :: fs.entries
  fits := List.forall_mem_cons.2 ⟨fits, fs.fits⟩
  bars := fs.bars

def remove (fs : FileSystem) (here : Location) : FileSystem where
  entries := fs.entries.filter fun (place, _) => !here.isSuffixOf place
  fits e he := fs.fits e (List.mem_filter.1 he).1
  bars := fs.bars.filter fun (place, _) => !here.isSuffixOf place

/-- The name of a place in a directory, if the place lies in it. -/
def nameIn (directory : Location) : Location → Option Name
  | name :: parent => if parent = directory ∧ name ≠ [] then some name else none
  | [] => none

def children (fs : FileSystem) (directory : Location) : List Name :=
  (fs.entries.filterMap fun (place, _) => nameIn directory place).eraseDups

@[simp] theorem get?_root (fs : FileSystem) : fs.get? [] = some .directory := rfl

@[simp] theorem bar?_add (fs : FileSystem) (here : Location) (entry : Entry)
    (fits : entry.Fits here) (place : Location) :
    (fs.add here entry fits).bar? place = fs.bar? place := rfl

theorem get?_add (fs : FileSystem) (name : Name) (parent : Location) (entry : Entry)
    (fits : entry.Fits (name :: parent)) (place : Location) :
    (fs.add (name :: parent) entry fits).get? place
      = if place = name :: parent then some entry else fs.get? place := by
  cases place with
  | nil => simp
  | cons n p =>
    by_cases h : n :: p = name :: parent
    · simp [get?, add, h]
    · have hb : ((n :: p) == (name :: parent)) = false := beq_false_of_ne h
      simp [get?, add, List.lookup_cons, hb, h]

theorem nameIn_eq_some {directory place : Location} {name : Name} :
    nameIn directory place = some name ↔ place = name :: directory ∧ name ≠ [] := by
  cases place with
  | nil => simp [nameIn]
  | cons n p =>
    simp only [nameIn, Option.ite_none_right_eq_some, Option.some.injEq, List.cons.injEq]
    constructor
    · rintro ⟨⟨rfl, hn⟩, rfl⟩; exact ⟨⟨rfl, rfl⟩, hn⟩
    · rintro ⟨⟨rfl, rfl⟩, hn⟩; exact ⟨⟨rfl, hn⟩, rfl⟩

theorem lookup_isSome_iff {entries : List (Location × Entry)} {place : Location} :
    (entries.lookup place).isSome ↔ ∃ e, (place, e) ∈ entries := by
  induction entries with
  | nil => simp
  | cons head tail ih =>
    obtain ⟨p, e⟩ := head
    by_cases h : place = p
    · subst h; simp
    · have hb : (place == p) = false := beq_false_of_ne h
      simp [List.lookup_cons, hb, ih, h]

theorem fits_of_get? {fs : FileSystem} {name : Name} {parent : Location} {entry : Entry}
    (h : fs.get? (name :: parent) = some entry) : entry.Fits (name :: parent) := by
  obtain ⟨before, after, hentries, -⟩ := List.lookup_eq_some_iff.1 h
  exact fs.fits (name :: parent, entry) (by simp [hentries])

/-- What lies at a place has a proper name, unless it was removed. -/
theorem proper_of_get? {fs : FileSystem} {name : Name} {parent : Location} {entry : Entry}
    (h : fs.get? (name :: parent) = some entry) (nonempty : name ≠ []) : name.IsProper :=
  (fits_of_get? h).proper name rfl nonempty

/-- Where a link leads can be read. -/
theorem zero_notMem_target {fs : FileSystem} {place : Location} {target : Path}
    (h : fs.get? place = some (.link target)) : 0 ∉ target.bytes := by
  cases place with
  | nil => simp at h
  | cons name parent => exact (fits_of_get? h).readable target rfl

theorem mem_children_iff {fs : FileSystem} {directory : Location} {name : Name} :
    name ∈ fs.children directory ↔ name ≠ [] ∧ (fs.get? (name :: directory)).isSome := by
  rw [children, List.mem_eraseDups, List.mem_filterMap]
  constructor
  · rintro ⟨⟨place, e⟩, hmem, hname⟩
    obtain ⟨rfl, hne⟩ := nameIn_eq_some.1 hname
    exact ⟨hne, lookup_isSome_iff.2 ⟨e, hmem⟩⟩
  · rintro ⟨hne, hsome⟩
    obtain ⟨e, he⟩ := lookup_isSome_iff.1 hsome
    exact ⟨_, he, nameIn_eq_some.2 ⟨rfl, hne⟩⟩

end FileSystem

end LaunchPlan
