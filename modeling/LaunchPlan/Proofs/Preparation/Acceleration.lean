import LaunchPlan.Proofs.Overlay.FirstUse

/-!
What the answer of the probe can change. It is asked last, when nothing can fail any more. Main
statements: `prepare_inquiry`, a preparation as a function of its probe, and
`probe_decides_acceleration`, two probes lead to launches that differ in the acceleration at most.
-/

namespace LaunchPlan

/-- Two commands are the same but for what they say of the processor. -/
def Launch.DiffersInCpu (l l' : Launch) : Prop :=
  ∃ front back,
    l.command = front ++ (if l.kvm then ["-enable-kvm", "-cpu", "host"] else ["-cpu", "Haswell"])
      ++ back ∧
    l'.command = front ++ (if l'.kvm then ["-enable-kvm", "-cpu", "host"] else ["-cpu", "Haswell"])
      ++ back

theorem Launch.differsInCpu_withKvm (l : Launch) (kvm kvm' : Bool) :
    Launch.DiffersInCpu { l with kvm } { l with kvm := kvm' } := by
  refine ⟨emulator :: (l.bootTokens ++ l.driveTokens ++ l.deviceTokens ++ l.pcapTokens
    ++ l.secondaryTokens ++ l.screenTokens), l.overlayTokens ++ l.appendTokens, ?_, ?_⟩
  · simp only [command, List.cons_append, List.append_assoc]
    rfl
  · simp only [command, List.cons_append, List.append_assoc]
    rfl

namespace Preparation

variable {probe : Probe} {o : Options} {d : Deployment} {s : Progress}

/-! No choice of a file asks the probe. -/

theorem OwnOutcome.probeCalls {artifact : Artifact} {source sidecar overlay : Path} {dryRun : Bool}
    {r : Ending Path} (h : OwnOutcome artifact source sidecar overlay dryRun s r) :
    r.progress.journal.probeCalls = s.journal.probeCalls := by
  cases h with
  | reused | lost | sourceMissing | kept | announced | copied | copyFailed => rfl

theorem ownStage_probeCalls (artifact : Artifact) (lookup : Except Fault Path)
    (sidecar overlay : Path) (dryRun : Bool) :
    (ownStage artifact lookup sidecar overlay dryRun s).progress.journal.probeCalls
      = s.journal.probeCalls := by
  cases lookup with
  | error fault => rfl
  | ok source => exact (ownArtifact_outcome rfl).probeCalls

theorem chooseBootImage_probeCalls :
    (Ending.progress (chooseBootImage o d s)).journal.probeCalls = s.journal.probeCalls := by
  rcases chooseBootImage_progress d with hsame | ⟨-, -, overlay, -, hown⟩
  · rw [hsame]
  · rw [hown, ownStage_probeCalls]

theorem chooseImage_probeCalls :
    (Ending.progress (chooseImage o d s)).journal.probeCalls = s.journal.probeCalls := by
  rcases chooseImage_progress d with hsame | ⟨overlay, -, hown⟩
  · rw [hsame]
  · rw [hown, ownStage_probeCalls]

/-- The ways in which a run that has not asked its probe so far ends, as a function of the probe. -/
inductive Inquiry (o : Options) (s : Progress) (run : Probe → Ending Launch) : Prop
  | unasked {e : Failure} {t : Progress} (calls : t.journal.probeCalls = s.journal.probeCalls)
      (ends : ∀ probe, run probe = .error e t) : Inquiry o s run
  | asked {l : Launch} {t : Progress} (calls : t.journal.probeCalls = s.journal.probeCalls)
      (ends : ∀ probe, run probe = .ok { l with kvm := o.kvmOn probe t.host }
        ((t.asked probe o).logged [.decided { l with kvm := o.kvmOn probe t.host }])) :
      Inquiry o s run

theorem complete_inquiry (o : Options) (s : Progress) (machine : String) (bootImage : BootImage)
    (image : Path) : Inquiry o s fun probe => complete probe o machine bootImage image s := by
  cases hports : Port.pair s.host.held with
  | error e =>
    refine .unasked (e := e) (t := (s.drawn o).logged (Port.pairEvents s.host.held)) rfl ?_
    intro probe
    simp only [complete_apply, hports]
  | ok ports =>
    refine .asked (t := (s.drawn o).logged (Port.pairEvents s.host.held)) (l := o.launch machine
      bootImage image (o.addresses s.host.dice).1 ports.1 ports.2 false) rfl ?_
    intro probe
    simp only [complete_apply, hports, Options.launch]

/-- What is decided before the last stage is decided without the probe. -/
theorem prepare_until_last (o : Options) (s : Progress) :
    (∃ e t, t.journal.probeCalls = s.journal.probeCalls ∧ ∀ probe, prepare probe o s = .error e t) ∨
      ∃ machine bootImage image t, t.journal.probeCalls = s.journal.probeCalls ∧
        ∀ probe, prepare probe o s = complete probe o machine bootImage image t := by
  by_cases hfits : o.uboot = true ∨ o.overlay = none
  · cases hmachine : machineOf s.host o with
    | error fault => exact .inl ⟨_, s, rfl, fun probe => by rw [prepare_apply s hfits, hmachine]⟩
    | ok machine =>
      have hboot := chooseBootImage_probeCalls (o := o) (d := ⟨o.dir, machine⟩) (s := s)
      cases hrom : chooseBootImage o ⟨o.dir, machine⟩ s with
      | error e t =>
        rw [hrom] at hboot
        refine .inl ⟨e, t, hboot, fun probe => ?_⟩
        rw [prepare_apply s hfits, hmachine]
        simp only [hrom]
      | ok bootImage t =>
        rw [hrom] at hboot
        have hdisk := chooseImage_probeCalls (o := o) (d := ⟨o.dir, machine⟩) (s := t)
        cases himage : chooseImage o ⟨o.dir, machine⟩ t with
        | error e u =>
          rw [himage] at hdisk
          refine .inl ⟨e, u, hdisk.trans hboot, fun probe => ?_⟩
          rw [prepare_apply s hfits, hmachine]
          simp only [hrom, himage]
        | ok image u =>
          rw [himage] at hdisk
          refine .inr ⟨machine, bootImage, image, u, hdisk.trans hboot, fun probe => ?_⟩
          rw [prepare_apply s hfits, hmachine]
          simp only [hrom, himage]
  · obtain ⟨hoff, hgiven⟩ : o.uboot = false ∧ o.overlay.isSome = true := by
      rw [not_or] at hfits
      exact ⟨by simpa using hfits.1, Option.isSome_iff_ne_none.2 hfits.2⟩
    exact .inl ⟨_, s, rfl, fun _ => prepare_refused s hoff hgiven⟩

/-- The probe is asked after everything that can fail. -/
theorem prepare_inquiry (o : Options) (s : Progress) :
    Inquiry o s fun probe => prepare probe o s := by
  rcases prepare_until_last o s with ⟨e, t, hcalls, hends⟩ | ⟨_, _, _, t, hcalls, hends⟩
  · exact .unasked hcalls hends
  · simp only [hends]
    cases complete_inquiry o t _ _ _ with
    | unasked calls ends => exact .unasked (calls.trans hcalls) ends
    | asked calls ends => exact .asked (calls.trans hcalls) ends

theorem asked_probeCalls (probe : Probe) (o : Options) (t : Progress) :
    (t.asked probe o).journal.probeCalls
      = t.journal.probeCalls + if o.kvm = .detect then 1 else 0 := by
  unfold Progress.asked
  cases o.kvm with
  | given kvm => rfl
  | detect => rfl

/-- A probe is asked once if the acceleration is left to it and the run comes to a launch, and else
not at all. Runs with two probes fail alike, or come to launches that differ in the acceleration at
most; nothing else is changed by the answer, and nothing at all if the acceleration is given. -/
theorem probe_decides_acceleration (probe other : Probe) (o : Options) (h : Host) :
    let run := h.run (prepare probe o)
    let run' := h.run (prepare other o)
    run.journal.probeCalls ≤ 1 ∧
    (run.journal.probeCalls = 1 ↔ o.kvm = .detect ∧ ∃ launch, run.result = .ok launch) ∧
    run.host = run'.host ∧ run.journal.printed = run'.journal.printed ∧
    ((∃ e, run.result = .error e ∧ run'.result = .error e) ∨
      ∃ launch launch', run.result = .ok launch ∧ run'.result = .ok launch' ∧
        launch' = { launch with kvm := launch'.kvm } ∧ launch.DiffersInCpu launch' ∧
        launch.overlayCommand = launch'.overlayCommand) ∧
    (o.kvm = .detect ∨ run = run') := by
  intro run run'
  have hrun : run = Ending.outcome (prepare probe o h.begin) := Host.run_eq _ _
  have hrun' : run' = Ending.outcome (prepare other o h.begin) := Host.run_eq _ _
  cases prepare_inquiry o h.begin with
  | @unasked e t calls ends =>
    rw [ends] at hrun hrun'
    have hcalls : run.journal.probeCalls = 0 := by
      rw [hrun]
      exact calls
    have hsame : run = run' := hrun.trans hrun'.symm
    have herror : run.result = .error e := by rw [hrun]; rfl
    rw [← hsame, hcalls, herror]
    exact ⟨by decide, by simp, rfl, rfl, .inl ⟨e, rfl, rfl⟩, .inr rfl⟩
  | @asked launch t calls ends =>
    rw [ends] at hrun hrun'
    have hcalls : run.journal.probeCalls = if o.kvm = .detect then 1 else 0 := by
      rw [hrun]
      show (t.asked probe o).journal.probeCalls = _
      rw [asked_probeCalls, calls]
      exact Nat.zero_add _
    have hresult : run.result = .ok { launch with kvm := o.kvmOn probe t.host } := by rw [hrun]; rfl
    have hresult' : run'.result = .ok { launch with kvm := o.kvmOn other t.host } := by
      rw [hrun']; rfl
    refine ⟨?_, ?_, ?_, ?_, .inr ⟨_, _, hresult, hresult', rfl, ?_, rfl⟩, ?_⟩
    · rw [hcalls]
      split <;> decide
    · rw [hcalls, hresult]
      split <;> simp_all
    · rw [hrun, hrun']
      simp
    · rw [hrun, hrun']
      simp
    · exact launch.differsInCpu_withKvm _ _
    · cases hset : o.kvm with
      | detect => exact .inl rfl
      | given kvm =>
        rw [hrun, hrun', Options.kvmOn_of_given hset, Options.kvmOn_of_given hset]
        simp [Progress.asked, hset]

end Preparation

end LaunchPlan
