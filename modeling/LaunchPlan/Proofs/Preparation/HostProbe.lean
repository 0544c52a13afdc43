import LaunchPlan.Proofs.Path.Parent
import LaunchPlan.Proofs.Preparation.Acceleration

/-!
The host's own probe. Main statements: `findProgram_ok_iff` and `program_available_iff`, a program
is the first one on the search path and only its own status counts, and `host_probe_known`, asking
it is the same as knowing its answer beforehand.
-/

namespace LaunchPlan

namespace Host

variable {h : Host} {name : String} {dir : Path} {program program' : Program}

/-- A directory of the search path holds a file of a name that may be run, and this is what running
it does. A link to such a file will do; a file that may not be run and a directory will not. -/
def Holds (h : Host) (name : String) (dir : Path) (program : Program) : Prop :=
  ∃ place content, h.files.follow h.cwd (h.candidate name dir) = .found place ∧
    h.files.get? place = some (.file content true) ∧
    program = h.files.runContent h.cwd FileSystem.maxInterpreters content

/-- Running the program of a name in the first directory of the search path that holds one does
this. -/
def FindsFirst (h : Host) (name : String) (program : Program) : Prop :=
  ∃ front dir back, h.searchPath = some (front ++ dir :: back) ∧ h.Holds name dir program ∧
    ∀ earlier ∈ front, ∀ other, ¬h.Holds name earlier other

/-- A directory of the search path that starts at the root is read as it stands. -/
theorem candidate_of_isAbsolute (absolute : dir.isAbsolute = true) :
    h.candidate name dir = dir.join (.ofString name) := by
  obtain ⟨body, hsegments, -⟩ := Path.segments_of_isAbsolute absolute
  have hplain : h.expandHome dir = dir := by simp [expandHome, hsegments, Path.tilde]
  unfold candidate
  simp only [hplain, Path.isAbsolute_join absolute]

theorem programAt_eq_some_iff :
    h.files.programAt h.cwd (h.candidate name dir) = some program ↔ h.Holds name dir program := by
  unfold FileSystem.programAt
  constructor
  · intro hprogram
    split at hprogram
    · next place hfound =>
      split at hprogram
      · next content hfile => exact ⟨place, content, hfound, hfile, by simpa using hprogram.symm⟩
      · cases hprogram
    · cases hprogram
  · rintro ⟨place, content, hfound, hfile, rfl⟩
    simp only [hfound, hfile]

theorem programAt_eq_none_iff :
    h.files.programAt h.cwd (h.candidate name dir) = none
      ↔ ∀ program, ¬h.Holds name dir program := by
  simp only [Option.eq_none_iff_forall_ne_some, ne_eq, programAt_eq_some_iff]

theorem findProgram_ok_iff : h.findProgram name = .ok program ↔ h.FindsFirst name program := by
  unfold findProgram FindsFirst
  cases h.searchPath with
  | none => simp
  | some dirs =>
    have hfirst : (dirs.findSome? fun dir => h.files.programAt h.cwd (h.candidate name dir))
        = some program ↔ ∃ front dir back, dirs = front ++ dir :: back ∧ h.Holds name dir program ∧
          ∀ earlier ∈ front, ∀ other, ¬h.Holds name earlier other := by
      simp only [List.findSome?_eq_some_iff, programAt_eq_some_iff, programAt_eq_none_iff]
    simp only [Option.some.injEq, ← hfirst]
    cases dirs.findSome? fun dir => h.files.programAt h.cwd (h.candidate name dir) <;> simp

theorem FindsFirst.unique (first : h.FindsFirst name program)
    (first' : h.FindsFirst name program') : program = program' := by
  rw [← findProgram_ok_iff] at first first'
  exact Except.ok.inj (first.symm.trans first')

end Host

/-- The host's own probe says yes only if the first program of its name runs and ends with status
zero. -/
theorem Probe.program_available_iff {h : Host} :
    (Probe.program h).available = true ↔ h.FindsFirst probeProgram (.exits 0) := by
  rw [← Host.findProgram_ok_iff]
  unfold program
  split <;> simp_all

namespace Preparation

/-- A run with a probe is the run that knows what the probe says of the host as it is left. -/
theorem run_known (probe : Probe) (o : Options) (h : Host) :
    let run := h.run (prepare probe o)
    run.result = (h.run (prepare (.known (probe run.host).available) o)).result := by
  intro run
  have hrun : run = Ending.outcome (prepare probe o h.begin) := Host.run_eq _ _
  rw [Host.run_eq]
  cases prepare_inquiry o h.begin with
  | unasked calls ends => rw [hrun, ends, ends]
  | @asked launch t calls ends =>
    have hhost : run.host = t.host := by
      rw [hrun, ends]
      simp
    have hsame : o.kvmOn (.known (probe t.host).available) t.host = o.kvmOn probe t.host := by
      unfold Options.kvmOn
      cases o.kvm <;> rfl
    rw [hhost, hrun, ends, ends, hsame]
    rfl

/-- Whatever is asked, a run leaves the same host and prints the same, and fails for the same
reason. -/
theorem run_alike (probe other : Probe) (o : Options) (h : Host) :
    let run := h.run (prepare probe o)
    let run' := h.run (prepare other o)
    run.host = run'.host ∧ run.journal.printed = run'.journal.printed ∧
      ∀ e, run.result = .error e → run'.result = .error e := by
  simp only [Host.run_eq]
  cases prepare_inquiry o h.begin with
  | unasked calls ends =>
    rw [ends, ends]
    exact ⟨rfl, rfl, fun _ => id⟩
  | asked calls ends =>
    rw [ends, ends]
    refine ⟨by simp, by simp, ?_⟩
    intro e herror
    cases herror

/-- A run that asks the host's own probe is the run that is told beforehand whether, among the files
as the run leaves them, the first `kvm-ok` of the search path that may be run ends with status zero:
it comes to the same result, leaves the same host and prints the same. One that is found first and
does not end so counts as a no, whatever comes after it, and no failure of the run is the probe's.
The files are looked at as they were in the beginning if the run has not changed them, and a
directory of the search path that starts at the root is taken as it stands. -/
theorem host_probe_known (o : Options) (h : Host) :
    let run := h.run (prepare .program o)
    let told (answer : Bool) := h.run (prepare (.known answer) o)
    (∃ answer, (answer = true ↔ run.host.FindsFirst probeProgram (.exits 0)) ∧
      run.result = (told answer).result) ∧
    (∀ answer, run.host = (told answer).host ∧
      run.journal.printed = (told answer).journal.printed) ∧
    (∀ program, run.host.FindsFirst probeProgram program → program ≠ .exits 0 →
      run.result = (told false).result) ∧
    (∀ e, run.result = .error e → ∀ answer, (told answer).result = .error e) ∧
    (run.host.files = h.files → ∀ program,
      run.host.FindsFirst probeProgram program ↔ h.FindsFirst probeProgram program) ∧
    (∀ dir, dir.isAbsolute = true →
      run.host.candidate probeProgram dir = dir.join (.ofString probeProgram)) := by
  intro run told
  have hknown : run.result = (told (Probe.program run.host).available).result := run_known _ o h
  refine ⟨⟨_, Probe.program_available_iff, hknown⟩, ?_, ?_, ?_, ?_, fun _ absolute =>
    Host.candidate_of_isAbsolute absolute⟩
  · intro answer
    obtain ⟨hhost, hprinted, -⟩ := run_alike .program (.known answer) o h
    exact ⟨hhost, hprinted⟩
  · intro program hfirst hfails
    have hno : (Probe.program run.host).available = false := by
      rw [Bool.eq_false_iff, ne_eq, Probe.program_available_iff]
      intro hyes
      exact hfails (hfirst.unique hyes)
    rwa [hno] at hknown
  · intro e herror answer
    obtain ⟨-, -, hfails⟩ := run_alike .program (.known answer) o h
    exact hfails e herror
  · intro hfiles program
    obtain ⟨_, after, dice, -, -, hleft⟩ := prepare_host (rfl : prepare .program o h.begin = _)
    rw [← Ending.outcome_host, ← Host.run_eq] at hleft
    have hafter : after = h.files := by rw [← hfiles, hleft]
    rw [hleft, hafter]
    rfl

end Preparation

namespace Sample

/-- A host with three directories to look for its probe in: what lies in the first may not be run,
what lies in the second says no, and what lies in the third says yes. -/
def undecided : Host :=
  { host (files [rom, image, (place ["a"], .directory), (place ["b"], .directory),
      (place ["c"], .directory), (place ["a", "kvm-ok"], .file (Text.encode "#!/bin/sh") false),
      (place ["b", "kvm-ok"], .file (Text.encode "#!/bin/sh\nexit 1\n") true),
      (place ["c", "kvm-ok"], .file (Text.encode "#!/bin/sh") true)] (by decide +kernel)) with
    searchPath := some [.ofString "/a", .ofString "/b", .ofString "/c"] }

end Sample

namespace Preparation

theorem host_probe_known_sample :
    (Sample.undecided.run (prepare .program Sample.asking)).host.FindsFirst probeProgram (.exits 1) ∧
      (Sample.undecided.run (prepare .program Sample.asking)).result
        = (Sample.undecided.run (prepare (.known false) Sample.asking)).result := by
  have hfirst : (Sample.undecided.run (prepare .program Sample.asking)).host.FindsFirst
      probeProgram (.exits 1) :=
    Host.findProgram_ok_iff.1 (by decide +kernel)
  have hknown := host_probe_known Sample.asking Sample.undecided
  exact ⟨hfirst, hknown.2.2.1 (.exits 1) hfirst (by decide)⟩

/-- What the probe would have said in the beginning is not what it says: a run can make the very
program that it then asks. -/
theorem host_probe_unforeseen :
    ¬∀ (o : Options) (h : Host) (answer : Bool),
      (answer = true ↔ h.FindsFirst probeProgram (.exits 0)) →
      (h.run (prepare .program o)).result = (h.run (prepare (.known answer) o)).result := by
  intro hclaim
  have hno : ¬Sample.selfServing.FindsFirst probeProgram (.exits 0) := by
    rw [← Host.findProgram_ok_iff]
    decide +kernel
  have hsame := hclaim Sample.asking Sample.selfServing false (by simp [hno])
  revert hsame
  decide +kernel

end Preparation

end LaunchPlan
