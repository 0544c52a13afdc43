import LaunchPlan.Options.Load
import LaunchPlan.Proofs.FileSystem.Canonical
import LaunchPlan.Proofs.Path.Parent

/-!
Options from a file. Main statements: `load_eq`, they are what the file says, read from the
directory part of its path, and `isRooted_load`, options from an absolute path have absolute paths.
-/

namespace LaunchPlan

namespace FileSystem

variable {fs : FileSystem} {aim : Aim} {cwd : Location} {p : Path}

theorem walkNames_idle {onLink : Location → Path → List Name → Walk} {names : List Name}
    (idle : Path.AreIdle names) (here : Location) :
    fs.walkNames aim onLink here names = .found here := by
  induction names with
  | nil => rfl
  | cons name rest ih =>
    rw [walkNames, if_pos (idle name List.mem_cons_self)]
    exact ih fun other hother => idle other (List.mem_cons_of_mem _ hother)

theorem hops_idle (idle : Path.AreIdle p.segments) : Path.AreIdle p.hops := by
  have hnames : Path.AreIdle p.names := fun name hname => idle name (List.mem_filter.1 hname).1
  unfold Path.hops
  split
  · intro name hname
    rcases List.mem_append.1 hname with hname | hname
    · exact hnames name hname
    · exact .inl (by simpa using hname)
  · exact hnames

/-- A walk that goes nowhere fails or stays in the directory it starts from. -/
theorem follow_idle (fs : FileSystem) (cwd : Location) (idle : Path.AreIdle p.segments) :
    (∃ fault, fs.follow cwd p = .failed fault) ∨
      ∃ place, fs.follow cwd p = .found place ∧ fs.get? place = some .directory := by
  unfold follow followTo
  split
  · exact .inl ⟨_, rfl⟩
  split
  · exact .inl ⟨_, rfl⟩
  split
  · exact .inl ⟨_, rfl⟩
  · next hstart =>
    rw [not_or, Bool.not_eq_false] at hstart
    obtain ⟨onLink, hwalk⟩ := @walk_eq_walkNames fs .find maxLinks
    rw [hwalk, walkNames_idle (hops_idle idle)]
    exact .inr ⟨_, rfl, get?_of_isStanding hstart.2⟩

theorem read_idle (fs : FileSystem) (cwd : Location) (idle : Path.AreIdle p.segments) :
    ∃ fault, fs.read cwd p = .error fault := by
  rcases follow_idle fs cwd idle with ⟨fault, hfailed⟩ | ⟨place, hfound, hdirectory⟩
  · exact ⟨fault, by rw [read, hfailed]; rfl⟩
  · exact ⟨.isDirectory, by simp only [read, hfound, hdirectory]⟩

end FileSystem

namespace Options

variable {h : Host} {path : Path} {o : Options}

/-- The options that a file spells, before their paths are read from its directory. -/
def written (h : Host) (path : Path) : Except ConfigFault Options :=
  match h.files.read h.cwd path with
  | .error fault => .error (.unreadableOptions path fault)
  | .ok content =>
    match Text.decode? content with
    | none => .error (.unreadableOptions path .notUtf8)
    | some text =>
      match ofYaml text with
      | .error fault => .error (.malformedOptions path fault)
      | .ok o => .ok o

theorem load_eq (h : Host) (path : Path) :
    load h path = (written h path).map fun o =>
      match path.parent? with
      | some base => o.rebase base
      | none => o := by
  unfold load written
  cases h.files.read h.cwd path with
  | error fault => rfl
  | ok content =>
    simp only
    cases Text.decode? content with
    | none => rfl
    | some text =>
      simp only
      cases ofYaml text with
      | error fault => rfl
      | ok o => cases path.parent? <;> rfl

theorem load_ok (loaded : load h path = .ok o) :
    ∃ w, written h path = .ok w ∧ o = match path.parent? with
      | some base => w.rebase base
      | none => w := by
  rw [load_eq] at loaded
  cases hwritten : written h path with
  | error fault => simp [hwritten, Except.map] at loaded
  | ok w =>
    simp only [hwritten, Except.map, Except.ok.injEq] at loaded
    exact ⟨w, rfl, loaded.symm⟩

/-- A path that options are read from leads somewhere. -/
theorem not_idle_of_written (spelled : written h path = .ok o) : ¬Path.AreIdle path.segments := by
  intro hidle
  obtain ⟨fault, hfault⟩ := h.files.read_idle h.cwd hidle
  simp [written, hfault] at spelled

/-- The paths that files are looked for by are absolute. -/
structure IsRooted (o : Options) : Prop where
  dir : o.dir.isAbsolute = true
  bootloader : ∀ path ∈ o.bootloader, path.isAbsolute = true
  overlay : ∀ path ∈ o.overlay, path.isAbsolute = true

theorem isRooted_rebase (o : Options) {base : Path} (rooted : base.isAbsolute = true) :
    (o.rebase base).IsRooted where
  dir := Path.isAbsolute_join rooted
  bootloader := by
    intro path hpath
    obtain ⟨given, -, rfl⟩ := Option.map_eq_some_iff.1 hpath
    exact Path.isAbsolute_join rooted
  overlay := by
    intro path hpath
    obtain ⟨given, -, rfl⟩ := Option.map_eq_some_iff.1 hpath
    exact Path.isAbsolute_join rooted

/-- Options from an absolute path have absolute paths. -/
theorem isRooted_load (absolute : path.isAbsolute = true) (loaded : load h path = .ok o) :
    o.IsRooted := by
  obtain ⟨w, hwritten, ho⟩ := load_ok loaded
  rcases Path.isAbsolute_parent absolute with ⟨base, hbase, hrooted⟩ | hidle
  · rw [hbase] at ho
    rw [ho]
    exact isRooted_rebase w hrooted
  · exact absurd hidle (not_idle_of_written hwritten)

end Options

end LaunchPlan
