import LaunchPlan.Proofs.Overlay.FirstUse

/-!
Any number of preparations, one after the other, on the files that the earlier ones left. Main
statement: `calls_only_add`, whatever is there stays as it is, and what a call adds are its
overlay's own copies.
-/

namespace LaunchPlan

/-- A preparation with all that it depends on but the files. -/
structure Call where
  probe : Probe
  options : Options
  cwd : Location
  held : List Port
  searchPath : Option (List Path)
  home : Path
  dice : Dice

namespace Call

variable (c : Call) (files : FileSystem)

def host : Host where
  files := files
  cwd := c.cwd
  held := c.held
  searchPath := c.searchPath
  home := c.home
  dice := c.dice

def outcome : Outcome Launch := (c.host files).run (Preparation.prepare c.probe c.options)

def leaves : FileSystem := (c.outcome files).host.files

/-- The files that calls leave, made one after the other. -/
def leaveAll : FileSystem → List Call → FileSystem
  | files, [] => files
  | files, c :: calls => leaveAll (c.leaves files) calls

/-- A call adds a file: its overlay's own copy of the U-Boot image, or of the disk image. The disk
image is looked up when the first of the two copies has been made. -/
inductive Adds (before : FileSystem) (place : Location) (file : Entry) : Prop
  | rom {machine : String} {overlay : Path} {mid : FileSystem} (uboot : c.options.uboot = true)
      (efi : c.options.efi = false)
      (known : Preparation.machineOf (c.host before) c.options = .ok machine)
      (copy : Preparation.FirstRom (c.host before) c.options machine overlay place file mid)
      (disk : Preparation.ImageStep (c.host before) c.options mid (c.leaves before))
  | image {machine : String} {overlay : Path} {mid : FileSystem}
      (uboot : c.options.uboot = true)
      (known : Preparation.machineOf (c.host before) c.options = .ok machine)
      (rom : Preparation.RomStep (c.host before) c.options mid)
      (copy : Preparation.FirstImage (c.host mid) c.options machine overlay place file
        (c.leaves before))

/-- What keeps a call from making any copy. -/
def MakesNoCopy (before : FileSystem) : Prop :=
  c.options.dryRun = true ∨ c.options.uboot = false ∨
    ∀ overlay, c.options.overlay = some overlay → (c.host before).isPresent overlay = true

theorem leaves_steps :
    ∃ mid, Preparation.RomStep (c.host files) c.options mid ∧
      Preparation.ImageStep (c.host files) c.options mid (c.leaves files) := by
  unfold leaves outcome
  rw [Host.run_eq, Ending.outcome_host]
  exact Preparation.prepare_files (s := (c.host files).begin) rfl

theorem grows_leaves : files.Grows (c.leaves files) := by
  obtain ⟨mid, hrom, himage⟩ := c.leaves_steps files
  exact hrom.grows.trans himage.grows

theorem grows_leaveAll (calls : List Call) : files.Grows (leaveAll files calls) := by
  induction calls generalizing files with
  | nil => exact .refl
  | cons c calls ih => exact (c.grows_leaves files).trans (ih (c.leaves files))

theorem leaveAll_append (earlier later : List Call) :
    leaveAll files (earlier ++ later) = leaveAll (leaveAll files earlier) later := by
  induction earlier generalizing files with
  | nil => rfl
  | cons c earlier ih => exact ih (c.leaves files)

variable {c files}

theorem adds_of_get? {place : Location} {file : Entry} (absent : files.get? place = none)
    (added : (c.leaves files).get? place = some file) : c.Adds files place file := by
  obtain ⟨mid, hrom, himage⟩ := c.leaves_steps files
  cases hmid : mid.get? place with
  | none =>
    obtain ⟨huboot, machine, overlay, hknown, hcopy⟩ := himage.made_of_new hmid added
    exact .image huboot hknown hrom hcopy
  | some entry =>
    -- The second step keeps what the first one has put there.
    have hsame : entry = file := by
      rw [himage.grows.get? hmid, Option.some.injEq] at added
      exact added
    subst hsame
    obtain ⟨huboot, hefi, machine, overlay, hknown, hcopy⟩ := hrom.made_of_new absent hmid
    exact .rom huboot hefi hknown hcopy himage

theorem leaves_eq_of_makesNoCopy (none : c.MakesNoCopy files) : c.leaves files = files := by
  obtain ⟨mid, hrom, himage⟩ := c.leaves_steps files
  have hstill {overlay : Path} (uboot : c.options.uboot = true) (real : c.options.dryRun = false)
      (given : c.options.overlay = some overlay)
      (fresh : (c.host files).isPresent overlay = false) : False := by
    rcases none with hdry | hoff | hthere
    · simp [real] at hdry
    · simp [uboot] at hoff
    · simp [hthere overlay given] at fresh
  cases hrom with
  | made huboot _ _ hcopy => exact (hstill huboot hcopy.real hcopy.given hcopy.fresh).elim
  | still =>
    generalize hafter : c.leaves files = after at himage ⊢
    cases himage with
    | still => rfl
    | made huboot _ hcopy => exact (hstill huboot hcopy.real hcopy.given hcopy.fresh).elim

theorem leaves_places :
    ∃ places : List Location, places.length ≤ 2 ∧
      ∀ place, place ∉ places → (c.leaves files).get? place = files.get? place := by
  obtain ⟨mid, hrom, himage⟩ := c.leaves_steps files
  obtain ⟨first, hfirst, hmid⟩ := hrom.places
  obtain ⟨second, hsecond, hafter⟩ := himage.places
  refine ⟨first ++ second, ?_, ?_⟩
  · rw [List.length_append]
    omega
  · intro place hplace
    rw [List.mem_append, not_or] at hplace
    exact (hafter place hplace.2).trans (hmid place hplace.1)

/-- Whatever calls are made, what is there stays as it is, and every path to it keeps leading to
it. A call adds two entries at most, each of them its overlay's own copy of an artifact. -/
theorem calls_only_add (files : FileSystem) (earlier : List Call) (c : Call)
    (later : List Call) :
    let before := leaveAll files earlier
    let after := c.leaves before
    let last := leaveAll files (earlier ++ c :: later)
    (∀ place entry, before.get? place = some entry → last.get? place = some entry) ∧
    (∀ cwd path place,
      before.follow cwd path = .found place → last.follow cwd path = .found place) ∧
    (∀ place file, before.get? place = none → after.get? place = some file →
      c.Adds before place file ∧ last.get? place = some file) ∧
    (∃ places : List Location, places.length ≤ 2 ∧
      ∀ place, place ∉ places → after.get? place = before.get? place) ∧
    (c.MakesNoCopy before → after = before) := by
  intro before after last
  have hlast : last = leaveAll after later := leaveAll_append files earlier (c :: later)
  have hlater : after.Grows last := by
    rw [hlast]
    exact grows_leaveAll after later
  have hgrows : before.Grows last := (c.grows_leaves before).trans hlater
  refine ⟨fun _ _ => hgrows.get?, fun _ _ _ => hgrows.follow_found, ?_, leaves_places,
    leaves_eq_of_makesNoCopy⟩
  intro place file habsent hadded
  exact ⟨adds_of_get? habsent hadded, hlater.get? hadded⟩

def sample : Call where
  probe := .known false
  options := Sample.options
  cwd := []
  held := []
  searchPath := none
  home := .root
  dice := .ofArray #[]

theorem calls_only_add_sample :
    let build := Sample.complete.files
    sample.Adds build (Sample.place ["v.u-boot.rom"]) (.file [1] false) ∧
      sample.Adds build (Sample.place ["v.img"]) (.file [2] false) := by
  have hadds := (calls_only_add Sample.complete.files [] sample []).2.2.1
  constructor
  · exact (hadds _ _ (by decide +kernel) (by decide +kernel)).1
  · exact (hadds _ _ (by decide +kernel) (by decide +kernel)).1

end Call

end LaunchPlan
