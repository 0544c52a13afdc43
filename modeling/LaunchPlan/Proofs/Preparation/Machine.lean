import LaunchPlan.Proofs.Preparation.Stage

/-!
Which machine is prepared. Main statements: `soleMachine_eq_iff`, what comes of looking for a
machine, case by case, and `machineOf_ok_iff`, the machine is the one that is named, or else the one
that is found.
-/

namespace LaunchPlan

namespace FileSystem

variable {fs : FileSystem} {cwd directory : Location} {p : Path} {name : Name}

theorem eraseDups_eq_singleton {names : List Name} (h : ∀ other, other ∈ names ↔ other = name) :
    names.eraseDups = [name] := by
  cases names with
  | nil => simpa using h name
  | cons first rest =>
    obtain rfl : first = name := (h first).1 List.mem_cons_self
    have hrest : rest.filter (fun other => !other == first) = [] := by
      rw [List.filter_eq_nil_iff]
      intro other hother
      simp [(h other).1 (List.mem_cons_of_mem _ hother)]
    rw [List.eraseDups_cons, hrest]
    rfl

theorem children_eq_singleton_iff :
    fs.children directory = [name] ↔ ∀ other, other ∈ fs.children directory ↔ other = name := by
  constructor
  · intro hchildren other
    rw [hchildren, List.mem_singleton]
  · intro hall
    apply eraseDups_eq_singleton
    intro other
    rw [← hall, children, List.mem_eraseDups]

/-- A directory has one entry and no other, of whatever kind it is. -/
def IsSoleEntry (fs : FileSystem) (directory : Location) (name : Name) : Prop :=
  ∀ other, other ≠ [] ∧ (fs.get? (other :: directory)).isSome ↔ other = name

theorem isSoleEntry_iff : fs.IsSoleEntry directory name ↔ fs.children directory = [name] := by
  simp only [children_eq_singleton_iff, mem_children_iff, IsSoleEntry]

theorem mapM_id_map_ok (names : List Name) :
    (names.map (Except.ok (ε := Fault))).mapM id = .ok names := by
  induction names with
  | nil => rfl
  | cons name rest ih => simp [List.mapM_cons, ih, bind, Except.bind, pure, Except.pure]

/-- Nothing is listed of a directory when reading it breaks off. -/
theorem mapM_id_broken (names : List Name) (fault : Fault) :
    (names.map Except.ok ++ [Except.error fault]).mapM id = .error fault := by
  induction names with
  | nil => rfl
  | cons name rest ih => simp [List.mapM_cons, ih, bind, Except.bind]

/-- A directory that is there is listed, unless something keeps it from being listed. -/
theorem list_of_found (found : fs.follow cwd p = .found directory)
    (there : fs.get? directory = some .directory) :
    fs.list cwd p = match fs.bar? directory with
      | none => .ok (fs.children directory)
      | some bar => .error bar.fault := by
  simp only [list, openDirectory, found, there, if_true]
  cases fs.bar? directory with
  | none => exact mapM_id_map_ok _
  | some bar =>
    cases bar with
    | closed fault => rfl
    | broken after fault => exact mapM_id_broken _ fault

end FileSystem

namespace Preparation

/-- What comes of looking for a machine: its name, if the path leads to a directory that can be
listed and has one entry, whose name is text. -/
inductive Detection (h : Host) (dir : Path) : Except Failure String → Prop
  | found {directory : Location} {name : Name} {machine : String}
      (leads : h.files.follow h.cwd dir = .found directory)
      (there : h.files.get? directory = some .directory)
      (listable : h.files.bar? directory = none)
      (sole : h.files.IsSoleEntry directory name) (text : Text.decode? name = some machine) :
      Detection h dir (.ok machine)
  | missing (nowhere : ∀ directory, h.files.follow h.cwd dir = .found directory →
        h.files.get? directory ≠ some .directory) :
      Detection h dir (.error (.config (.imagesDirectoryMissing dir)))
  | barred {directory : Location} {bar : Bar}
      (leads : h.files.follow h.cwd dir = .found directory)
      (there : h.files.get? directory = some .directory)
      (barred : h.files.bar? directory = some bar) :
      Detection h dir (.error (.io bar.fault))
  | ambiguous {directory : Location} (leads : h.files.follow h.cwd dir = .found directory)
      (there : h.files.get? directory = some .directory)
      (listable : h.files.bar? directory = none)
      (several : ∀ name, ¬h.files.IsSoleEntry directory name) :
      Detection h dir (.error (.config (.machineAmbiguous dir)))
  | notText {directory : Location} {name : Name}
      (leads : h.files.follow h.cwd dir = .found directory)
      (there : h.files.get? directory = some .directory)
      (listable : h.files.bar? directory = none)
      (sole : h.files.IsSoleEntry directory name) (bytes : Text.decode? name = none) :
      Detection h dir (.error (.config (.machineNotUtf8 name)))

variable {o : Options} {h : Host} {dir : Path} {directory : Location} {machine : String}
  {result : Except Failure String}

theorem soleMachine_of_nowhere (nowhere : ∀ directory,
      h.files.follow h.cwd dir = .found directory → h.files.get? directory ≠ some .directory) :
    soleMachine h dir = .error (.config (.imagesDirectoryMissing dir)) := by
  have hdirectory : h.files.isDirectory h.cwd dir = false := by
    unfold FileSystem.isDirectory
    split
    · next directory hfound => simpa using nowhere directory hfound
    · rfl
  simp [soleMachine, hdirectory]

theorem soleMachine_of_found (found : h.files.follow h.cwd dir = .found directory)
    (there : h.files.get? directory = some .directory) :
    soleMachine h dir = match h.files.bar? directory with
      | some bar => .error (.io bar.fault)
      | none =>
        match h.files.children directory with
        | [name] =>
          match Text.decode? name with
          | some machine => .ok machine
          | none => .error (.config (.machineNotUtf8 name))
        | _ => .error (.config (.machineAmbiguous dir)) := by
  have hdirectory : h.files.isDirectory h.cwd dir = true := by
    simp [FileSystem.isDirectory, found, there]
  simp only [soleMachine, hdirectory, FileSystem.list_of_found found there, Bool.not_true,
    Bool.false_eq_true, if_false]
  cases h.files.bar? directory with
  | some bar => rfl
  | none =>
    rcases h.files.children directory with - | ⟨name, - | ⟨other, rest⟩⟩
    · rfl
    · rfl
    · rfl

theorem Detection.soleMachine_eq (detection : Detection h dir result) :
    soleMachine h dir = result := by
  cases detection with
  | found leads there hlistable sole text =>
    simp only [soleMachine_of_found leads there, hlistable, FileSystem.isSoleEntry_iff.1 sole, text]
  | missing nowhere => exact soleMachine_of_nowhere nowhere
  | barred leads there hbarred => simp only [soleMachine_of_found leads there, hbarred]
  | ambiguous leads there hlistable several =>
    simp only [soleMachine_of_found leads there, hlistable]
    split
    · next name hsole => exact absurd (FileSystem.isSoleEntry_iff.2 hsole) (several name)
    · rfl
  | notText leads there hlistable sole bytes =>
    simp only [soleMachine_of_found leads there, hlistable, FileSystem.isSoleEntry_iff.1 sole, bytes]

theorem exists_detection (h : Host) (dir : Path) : ∃ result, Detection h dir result := by
  by_cases hleads : ∃ directory, h.files.follow h.cwd dir = .found directory ∧
      h.files.get? directory = some .directory
  · obtain ⟨directory, hfound, hthere⟩ := hleads
    cases hbar : h.files.bar? directory with
    | some bar => exact ⟨_, .barred hfound hthere hbar⟩
    | none =>
      by_cases hsole : ∃ name, h.files.IsSoleEntry directory name
      · obtain ⟨name, hsole⟩ := hsole
        cases htext : Text.decode? name with
        | some machine => exact ⟨_, .found hfound hthere hbar hsole htext⟩
        | none => exact ⟨_, .notText hfound hthere hbar hsole htext⟩
      · exact ⟨_, .ambiguous hfound hthere hbar (not_exists.1 hsole)⟩
  · exact ⟨_, .missing fun directory hfound hthere => hleads ⟨directory, hfound, hthere⟩⟩

theorem soleMachine_eq_iff : soleMachine h dir = result ↔ Detection h dir result := by
  constructor
  · rintro rfl
    obtain ⟨result, hdetection⟩ := exists_detection h dir
    rwa [hdetection.soleMachine_eq]
  · exact Detection.soleMachine_eq

/-- A path leads to a directory that cannot be listed. -/
structure Unlistable (h : Host) (dir : Path) (fault : Fault) : Prop where
  there : h.files.isDirectory h.cwd dir = true
  fails : h.files.list h.cwd dir = .error fault

theorem detection_io_iff {fault : Fault} :
    Detection h dir (.error (.io fault)) ↔ Unlistable h dir fault := by
  constructor
  · intro detection
    generalize hresult : (.error (.io fault) : Except Failure String) = result at detection
    cases detection with
    | barred leads there barred =>
      cases hresult
      constructor
      · simp [FileSystem.isDirectory, leads, there]
      · rw [FileSystem.list_of_found leads there, barred]
    | found | missing | ambiguous | notText => cases hresult
  · rintro ⟨hthere, hlist⟩
    exact soleMachine_eq_iff.1 (by simp [soleMachine, hthere, hlist])

theorem found_of_soleMachine (known : soleMachine h dir = .ok machine) :
    ∃ directory, h.files.follow h.cwd dir = .found directory := by
  cases soleMachine_eq_iff.1 known with
  | found leads => exact ⟨_, leads⟩

/-- The machine of a launch: the one that is named, or the one that is found. -/
inductive IsMachine (h : Host) (o : Options) (machine : String) : Prop
  | given (named : o.machine = .given machine)
  | detected (asked : o.machine = .detect) (detection : Detection h o.dir (.ok machine))

/-- A machine that is not named and not found, and why it is not found. -/
structure Machineless (h : Host) (o : Options) (e : Failure) : Prop where
  asked : o.machine = .detect
  detection : Detection h o.dir (.error e)

theorem machineOf_ok_iff : machineOf h o = .ok machine ↔ IsMachine h o machine := by
  unfold machineOf
  cases hset : o.machine with
  | given named =>
    constructor
    · intro known
      cases known
      exact .given hset
    · rintro (hnamed | ⟨hasked, -⟩)
      · cases hset.symm.trans hnamed
        rfl
      · cases hset.symm.trans hasked
  | detect =>
    constructor
    · exact fun known => .detected hset (soleMachine_eq_iff.1 known)
    · rintro (hnamed | ⟨-, hdetection⟩)
      · cases hset.symm.trans hnamed
      · exact hdetection.soleMachine_eq

theorem machineOf_error_iff {e : Failure} : machineOf h o = .error e ↔ Machineless h o e := by
  unfold machineOf
  cases hset : o.machine with
  | given named =>
    constructor
    · intro unknown
      cases unknown
    · rintro ⟨hasked, -⟩
      cases hset.symm.trans hasked
  | detect =>
    constructor
    · exact fun unknown => ⟨hset, soleMachine_eq_iff.1 unknown⟩
    · exact fun hless => hless.detection.soleMachine_eq

/-- It is a fault of configuration that a machine is not found, unless its directory cannot be
listed. -/
theorem Machineless.failure {e : Failure} (less : Machineless h o e) :
    (∃ fault, e = .config fault) ∨ ∃ fault, e = .io fault ∧ Unlistable h o.dir fault := by
  have hdetection := less.detection
  cases less.detection with
  | missing | ambiguous | notText => exact .inl ⟨_, rfl⟩
  | barred => exact .inr ⟨_, rfl, detection_io_iff.1 hdetection⟩

theorem Machineless.unknown {e : Failure} (less : Machineless h o e) :
    ¬∃ machine, IsMachine h o machine := by
  rintro ⟨machine, hmachine⟩
  cases (machineOf_error_iff.2 less).symm.trans (machineOf_ok_iff.2 hmachine)

end Preparation

end LaunchPlan
