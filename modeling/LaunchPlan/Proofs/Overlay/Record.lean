import LaunchPlan.Proofs.Overlay.Plan
import LaunchPlan.Proofs.Overlay.Repeat
import LaunchPlan.Proofs.Preparation.Tolerance

/-!
What a preparation says of its copies, beside what it does. Main statements: `Makes.creates`, copies
made one after the other are all that is new, and hold what their sources hold; `prepare_records`,
the copies that are reported are those that were made, however a preparation ends;
`prepare_foretells`, what a dry run prints and misses at the first use of an overlay; and
`record_is_truthful`, which puts them together for a whole run.
-/

namespace LaunchPlan

namespace Event

def isCopied : Event → Bool
  | .copied .. => true
  | _ => false

def isMissing : Event → Bool
  | .sourceMissing .. => true
  | _ => false

/-- No other event is logged with the words for a copy. -/
theorem isCopied_iff (e : Event) :
    e.isCopied = true ↔ e.level = .info ∧
      ∃ artifact : Artifact, e.message = "copied " ++ artifact.label ++ " for overlay" := by
  cases e with
  | copied artifact source sidecar => exact iff_of_true rfl ⟨rfl, artifact, rfl⟩
  | decided launch =>
    have hother (artifact : Artifact) :
        "resolved launch configuration" ≠ "copied " ++ artifact.label ++ " for overlay" := by
      cases artifact <;> decide +kernel
    exact iff_of_false Bool.false_ne_true fun ⟨_, artifact, hmessage⟩ => hother artifact hmessage
  | _ => simp [isCopied, level]

/-- No other event is logged with the words for what a dry run misses. -/
theorem isMissing_iff (e : Event) :
    e.isMissing = true ↔ e.level = .warn ∧
      ∃ artifact : Artifact, e.message = artifact.label ++ " missing (dry run)" := by
  cases e with
  | sourceMissing artifact source => exact iff_of_true rfl ⟨rfl, artifact, rfl⟩
  | windowExhausted start stop =>
    have hother (artifact : Artifact) :
        "no free TCP port in window" ≠ artifact.label ++ " missing (dry run)" := by
      cases artifact <;> decide +kernel
    exact iff_of_false Bool.false_ne_true fun ⟨_, artifact, hmessage⟩ => hother artifact hmessage
  | _ => simp [isMissing, level]

/-- A kind of events that nothing is logged with once the files are known: neither the choice of
ports, nor the answer of the host's own program, nor the launch. -/
structure IsOfFiles (kind : Event → Bool) : Prop where
  skipped : ∀ port, kind (.portSkipped port) = false
  exhausted : ∀ start stop, kind (.windowExhausted start stop) = false
  absent : ∀ fault, kind (.probeMissing fault) = false
  refused : ∀ status, kind (.probeRefused status) = false
  unstartable : ∀ fault, kind (.probeUnstartable fault) = false
  decided : ∀ launch, kind (.decided launch) = false

theorem isOfFiles_isCopied : IsOfFiles isCopied :=
  ⟨fun _ => rfl, fun _ _ => rfl, fun _ => rfl, fun _ => rfl, fun _ => rfl, fun _ => rfl⟩

theorem isOfFiles_isMissing : IsOfFiles isMissing :=
  ⟨fun _ => rfl, fun _ _ => rfl, fun _ => rfl, fun _ => rfl, fun _ => rfl, fun _ => rfl⟩

theorem IsOfFiles.filter_pairEvents {kind : Event → Bool} (ofFiles : IsOfFiles kind)
    (held : List Port) : (Port.pairEvents held).filter kind = [] := by
  have hsearch (start : Port) : (Port.searchEvents held start).filter kind = [] := by
    rw [Port.searchEvents, List.filter_append, List.append_eq_nil_iff]
    constructor
    · simp [List.filter_eq_nil_iff, ofFiles.skipped]
    · split
      · simp [ofFiles.exhausted]
      · rfl
  rw [Port.pairEvents, List.filter_append, hsearch]
  split
  · rfl
  · exact hsearch Port.sshStart

end Event

/-- A copy that was made: of which artifact, from where and to where, and at which place it lies. -/
structure MadeCopy where
  artifact : Artifact
  source : Path
  sidecar : Path
  place : Location

def MadeCopy.event (c : MadeCopy) : Event := .copied c.artifact c.source c.sidecar

namespace FileSystem

/-- Copies made one after the other, each where there was nothing. -/
inductive Makes (cwd : Location) : List MadeCopy → FileSystem → FileSystem → Prop
  | nothing {fs : FileSystem} : Makes cwd [] fs fs
  | copy {c : MadeCopy} {file : Entry} {made : List MadeCopy} {before mid after : FileSystem}
      (first : Copied cwd c.source c.sidecar c.place file before mid)
      (rest : Makes cwd made mid after) : Makes cwd (c :: made) before after

/-- What copies come to that were made one after the other: nothing else is new, what was there is
as it was, and each copy lies where its path leads and has the bytes that its source leads to. -/
structure Creates (cwd : Location) (made : List MadeCopy) (before after : FileSystem) : Prop where
  makes : Makes cwd made before after
  new : ∀ place, place ∈ made.map MadeCopy.place ↔
    before.get? place = none ∧ (after.get? place).isSome = true
  kept : ∀ place entry, before.get? place = some entry → after.get? place = some entry
  once : (made.map MadeCopy.place).Nodup
  holds : ∀ c ∈ made, after.follow cwd c.sidecar = .found c.place ∧
    ∃ content, after.IsFile cwd c.source content ∧ after.IsFile cwd c.sidecar content

namespace Makes

variable {cwd : Location} {made later : List MadeCopy} {before mid after : FileSystem}

theorem append (h : Makes cwd made before mid) (h' : Makes cwd later mid after) :
    Makes cwd (made ++ later) before after := by
  induction h with
  | nothing => exact h'
  | copy first _ ih => exact .copy first (ih h')

theorem grows (h : Makes cwd made before after) : before.Grows after := by
  induction h with
  | nothing => exact .refl
  | copy first _ ih => exact first.grows.trans ih

/-- A place is new exactly if a copy was made there. -/
theorem new_iff (h : Makes cwd made before after) (place : Location) :
    place ∈ made.map MadeCopy.place ↔
      before.get? place = none ∧ (after.get? place).isSome = true := by
  induction h with
  | nothing => simp_all
  | @copy c file made before mid after first rest ih =>
    rw [List.map_cons, List.mem_cons, ih, first.get?]
    by_cases hplace : place = c.place
    · have hthere : after.get? c.place = some file :=
        rest.grows.get? (by rw [first.get?, if_pos rfl])
      simp [hplace, first.gap, hthere]
    · simp [hplace]

theorem once (h : Makes cwd made before after) : (made.map MadeCopy.place).Nodup := by
  induction h with
  | nothing => exact List.nodup_nil
  | @copy c file made before mid after first rest ih =>
    rw [List.map_cons, List.nodup_cons]
    refine ⟨fun hagain => ?_, ih⟩
    have hgap := ((rest.new_iff c.place).1 hagain).1
    rw [first.get?, if_pos rfl] at hgap
    cases hgap

theorem holds (h : Makes cwd made before after) {c : MadeCopy} (member : c ∈ made) :
    after.follow cwd c.sidecar = .found c.place ∧
      ∃ content, after.IsFile cwd c.source content ∧ after.IsFile cwd c.sidecar content := by
  induction h with
  | nothing => cases member
  | @copy first' file made before mid after first rest ih =>
    rcases List.mem_cons.1 member with rfl | hlater
    · obtain ⟨content, hsource, hcopy⟩ := first.isFile_target
      exact ⟨rest.grows.follow_found first.follow_target, content,
        (first.grows.trans rest.grows).isFile hsource, rest.grows.isFile hcopy⟩
    · exact ih hlater

theorem creates (h : Makes cwd made before after) : Creates cwd made before after where
  makes := h
  new := h.new_iff
  kept _ _ := h.grows.get?
  once := h.once
  holds _ := h.holds

end Makes

end FileSystem

/-- An overlay's own copies, each with what it is a copy of. -/
def Options.sidecars (o : Options) : List (Artifact × Path) :=
  match o.overlay with
  | some overlay => [(.ubootImage, romSidecar overlay), (.osImage, imageSidecar overlay)]
  | none => []

/-- What an overlay gets copies of: firmware takes the place of the U-Boot image. -/
def Options.artifacts (o : Options) : List Artifact :=
  if o.efi then [.osImage] else [.ubootImage, .osImage]

def MadeCopy.named (c : MadeCopy) : Artifact × Path := (c.artifact, c.sidecar)

/-- What the probe said in a run. It is asked once both ports are found, and then the run comes to
a launch. -/
def Outcome.answers (outcome : Outcome Launch) (probe : Probe) (o : Options) : List Event :=
  match outcome.result with
  | .ok _ => o.inquiry probe outcome.host
  | .error _ => []

/-- The host's own program adds nothing to what is logged of the files. -/
theorem Event.IsOfFiles.filter_answers {kind : Event → Bool} (ofFiles : IsOfFiles kind)
    (outcome : Outcome Launch) (o : Options) :
    (outcome.answers .program o).filter kind = [] := by
  unfold Outcome.answers Options.inquiry Probe.program
  split
  · split
    · rfl
    · split <;> simp [ofFiles.absent, ofFiles.refused, ofFiles.unstartable]
  · rfl

theorem Progress.asked_events (s : Progress) (probe : Probe) (o : Options) :
    (s.asked probe o).journal.events = s.journal.events ++ o.inquiry probe s.host := by
  unfold Progress.asked Options.inquiry
  cases o.kvm with
  | given kvm => simp
  | detect => rfl

namespace Preparation

variable {probe : Probe} {o : Options} {d : Deployment} {s t u : Progress}
  {made later : List MadeCopy}

/-- From one progress to another copies were made, and these are the ones that were reported. -/
structure Records (made : List MadeCopy) (s t : Progress) : Prop where
  cwd : t.host.cwd = s.host.cwd
  makes : FileSystem.Makes s.host.cwd made s.host.files t.host.files
  events : t.journal.events.filter Event.isCopied
    = s.journal.events.filter Event.isCopied ++ made.map MadeCopy.event

theorem Records.refl (s : Progress) : Records [] s s := ⟨rfl, .nothing, by simp⟩

theorem Records.trans (h : Records made s t) (h' : Records later t u) :
    Records (made ++ later) s u where
  cwd := h'.cwd.trans h.cwd
  makes := by
    have hlater := h'.makes
    rw [h.cwd] at hlater
    exact h.makes.append hlater
  events := by rw [h'.events, h.events, List.map_append, List.append_assoc]

section OwnCopy

variable {artifact : Artifact} {source sidecar overlay : Path} {lookup : Except Fault Path}
  {dryRun : Bool} {r : Ending Path}

/-- A step that only logs something else records nothing. -/
theorem records_logged {events : List Event} (other : events.filter Event.isCopied = []) :
    Records [] s (s.logged events) :=
  ⟨rfl, .nothing, by simp [Progress.logged, other]⟩

theorem filter_sourceEvents (artifact : Artifact) (source : Path) (present : Bool) :
    (sourceEvents artifact source present).filter Event.isCopied = [] := by
  cases present <;> rfl

theorem OwnOutcome.records (h : OwnOutcome artifact source sidecar overlay dryRun s r) :
    ∃ made, Records made s r.progress ∧
      (made.map MadeCopy.named).Sublist [(artifact, sidecar)] := by
  cases h with
  | reused => exact ⟨[], records_logged rfl, List.nil_sublist _⟩
  | lost => exact ⟨[], records_logged rfl, List.nil_sublist _⟩
  | sourceMissing => exact ⟨[], .refl s, List.nil_sublist _⟩
  | kept =>
    refine ⟨[], records_logged ?_, List.nil_sublist _⟩
    rw [List.filter_append, filter_sourceEvents]
    rfl
  | announced =>
    have hlogged : Records [] s
        (s.logged (sourceEvents artifact source (s.host.isPresent source))) :=
      records_logged (filter_sourceEvents _ _ _)
    exact ⟨[], ⟨rfl, .nothing, hlogged.events⟩, List.nil_sublist _⟩
  | copied _ _ _ hown hcopy =>
    obtain ⟨place, file, hcopied⟩ := FileSystem.copied_of_copy hown hcopy
    refine ⟨[⟨artifact, source, sidecar, place⟩], ⟨rfl, .copy hcopied .nothing, ?_⟩,
      List.Sublist.refl _⟩
    simp [Progress.logged, Progress.withFiles, Event.isCopied, MadeCopy.event]
  | copyFailed => exact ⟨[], .refl s, List.nil_sublist _⟩

theorem ownStage_records (h : ownStage artifact lookup sidecar overlay dryRun s = r) :
    ∃ made, Records made s r.progress ∧
      (made.map MadeCopy.named).Sublist [(artifact, sidecar)] := by
  subst h
  cases lookup with
  | error fault => exact ⟨[], .refl s, List.nil_sublist _⟩
  | ok source => exact (ownArtifact_outcome rfl).records

end OwnCopy

theorem chooseBootImage_records {r : Ending BootImage} (h : chooseBootImage o d s = r) :
    ∃ made, Records made s r.progress ∧
      (made.map MadeCopy.named).Sublist (o.sidecars.take 1) := by
  subst h
  rcases chooseBootImage_progress d with hsame | ⟨-, -, overlay, hgiven, hown⟩
  · rw [hsame]
    exact ⟨[], .refl s, List.nil_sublist _⟩
  · rw [hown]
    simp only [Options.sidecars, hgiven]
    exact ownStage_records rfl

theorem chooseImage_records {r : Ending Path} (h : chooseImage o d s = r) :
    ∃ made, Records made s r.progress ∧
      (made.map MadeCopy.named).Sublist (o.sidecars.drop 1) := by
  subst h
  rcases chooseImage_progress d with hsame | ⟨overlay, hgiven, hown⟩
  · rw [hsame]
    exact ⟨[], .refl s, List.nil_sublist _⟩
  · rw [hown]
    simp only [Options.sidecars, hgiven]
    exact ownStage_records rfl

/-- The last stage makes no copy and misses none: what it logs of either comes from the probe. -/
theorem complete_events {machine : String} {bootImage : BootImage} {image : Path}
    {r : Ending Launch} {kind : Event → Bool} (ofFiles : Event.IsOfFiles kind)
    (h : complete probe o machine bootImage image s = r) :
    r.progress.journal.events.filter kind
      = s.journal.events.filter kind ++ (r.outcome.answers probe o).filter kind := by
  subst h
  rw [complete_apply]
  cases Port.pair s.host.held with
  | error e =>
    simp [Progress.logged, Progress.drawn, Ending.outcome, Outcome.answers,
      ofFiles.filter_pairEvents]
  | ok pair =>
    simp [Progress.logged, Progress.drawn, Progress.asked_events, Ending.outcome, Outcome.answers,
      ofFiles.filter_pairEvents, ofFiles.decided]

/-- Both stages that make copies, one after the other. -/
theorem stages_records {bootImage : BootImage} {r : Ending Path}
    (boot : chooseBootImage o d s = .ok bootImage t) (disk : chooseImage o d t = r) :
    ∃ made, Records made s r.progress ∧ (made.map MadeCopy.named).Sublist o.sidecars := by
  obtain ⟨made, hboot, hrom⟩ := chooseBootImage_records boot
  obtain ⟨later, hdisk, himage⟩ := chooseImage_records disk
  refine ⟨made ++ later, hboot.trans hdisk, ?_⟩
  rw [List.map_append, ← List.take_append_drop 1 o.sidecars]
  exact hrom.append himage

/-- However a preparation ends, it has reported the copies that it made. -/
theorem prepare_records {r : Ending Launch} (h : prepare probe o s = r) :
    ∃ made, FileSystem.Makes s.host.cwd made s.host.files r.progress.host.files ∧
      r.progress.journal.events.filter Event.isCopied
        = s.journal.events.filter Event.isCopied ++ made.map MadeCopy.event
          ++ (r.outcome.answers probe o).filter Event.isCopied ∧
      (made.map MadeCopy.named).Sublist o.sidecars := by
  cases prepare_outcome h with
  | refused => exact ⟨[], .nothing, by simp [Ending.outcome, Outcome.answers], List.nil_sublist _⟩
  | unknownMachine =>
    exact ⟨[], .nothing, by simp [Ending.outcome, Outcome.answers], List.nil_sublist _⟩
  | bootFailed _ _ hboot =>
    obtain ⟨made, hrecords, hnamed⟩ := chooseBootImage_records hboot
    refine ⟨made, hrecords.makes, ?_, hnamed.trans (List.take_sublist _ _)⟩
    simpa [Ending.outcome, Outcome.answers] using hrecords.events
  | imageFailed _ _ hboot hdisk =>
    obtain ⟨made, hrecords, hnamed⟩ := stages_records hboot hdisk
    refine ⟨made, hrecords.makes, ?_, hnamed⟩
    simpa [Ending.outcome, Outcome.answers] using hrecords.events
  | completed _ _ hboot hdisk =>
    obtain ⟨made, hrecords, hnamed⟩ := stages_records hboot hdisk
    rw [Ending.progress_ok] at hrecords
    refine ⟨made, ?_, ?_, hnamed⟩
    · rw [complete_host]
      exact hrecords.makes
    · rw [complete_events Event.isOfFiles_isCopied rfl, hrecords.events]

/-! Without an overlay no stage before the last one leaves a trace. -/

theorem chooseBootImage_traceless {r : Ending BootImage} (plain : o.overlay = none)
    (h : chooseBootImage o d s = r) : r.progress = s := by
  subst h
  refine (chooseBootImage_progress d).resolve_right ?_
  rintro ⟨-, -, overlay, hgiven, -⟩
  cases plain.symm.trans hgiven

theorem chooseImage_traceless {r : Ending Path} (plain : o.overlay = none)
    (h : chooseImage o d s = r) : r.progress = s := by
  subst h
  refine (chooseImage_progress d).resolve_right ?_
  rintro ⟨overlay, hgiven, -⟩
  cases plain.symm.trans hgiven

theorem prepare_printed_plain {r : Ending Launch} (plain : o.overlay = none)
    (h : prepare probe o s = r) : r.progress.journal.printed = s.journal.printed := by
  have hsame {t : Progress} (traceless : t = s) : t.journal.printed = s.journal.printed :=
    congrArg (fun t : Progress => t.journal.printed) traceless
  cases prepare_outcome h with
  | refused => rfl
  | unknownMachine => rfl
  | bootFailed _ _ boot => exact hsame (chooseBootImage_traceless plain boot)
  | imageFailed _ _ boot disk =>
    exact hsame ((chooseImage_traceless plain disk).trans (chooseBootImage_traceless plain boot))
  | completed _ _ boot disk =>
    rw [complete_printed]
    exact hsame ((chooseImage_traceless plain disk).trans (chooseBootImage_traceless plain boot))

/-- Nothing is printed but in a dry run at the first use of an overlay. -/
theorem prepare_prints_nothing {r : Ending Launch}
    (quiet : o.dryRun = false ∨ o.overlay = none ∨
      ∃ overlay, o.overlay = some overlay ∧ s.host.isPresent overlay = true)
    (h : prepare probe o s = r) : r.progress.journal.printed = s.journal.printed := by
  rcases quiet with hreal | hplain | ⟨overlay, hgiven, hthere⟩
  · exact prepare_printed hreal h
  · exact prepare_printed_plain hplain h
  · rw [← h]
    exact (prepare_there s probe hgiven hthere).2

/-! A dry run at the first use of an overlay. -/

/-- An artifact that an overlay gets a copy of, and where it is to come from. -/
structure Prepared where
  artifact : Artifact
  source : Path
  sidecar : Path

namespace Prepared

def plan (a : Prepared) : PlannedCopy := ⟨a.source, a.sidecar⟩

def missing (a : Prepared) : Event := .sourceMissing a.artifact a.source

end Prepared

/-- The artifact that is where `lookup` says. -/
def Prepared.of (artifact : Artifact) (lookup : Except Fault Path) (sidecar : Path) :
    Except Fault (List Prepared) :=
  lookup.map fun source => [⟨artifact, source, sidecar⟩]

/-- The U-Boot image as it is prepared; firmware takes its place. -/
def preparedRom (h : Host) (o : Options) (d : Deployment) (overlay : Path) :
    Except Fault (List Prepared) :=
  if o.efi then .ok [] else Prepared.of .ubootImage (romSource h o d) (romSidecar overlay)

def preparedImage (h : Host) (o : Options) (d : Deployment) (overlay : Path) :
    Except Fault (List Prepared) :=
  Prepared.of .osImage (imageSource h o d) (imageSidecar overlay)

/-- The artifacts that a first use of the overlay gets to. One whose source has no path to be named
by ends it. -/
def reached (h : Host) (o : Options) (d : Deployment) (overlay : Path) : List Prepared :=
  match preparedRom h o d overlay, preparedImage h o d overlay with
  | .error _, _ => []
  | .ok roms, .error _ => roms
  | .ok roms, .ok images => roms ++ images

/-- From one progress to another these artifacts were gone through in a dry run: the copies that
are due were printed, the sources that are not there were reported, and the host was left alone. -/
structure Foretells (prepared : List Prepared) (s t : Progress) : Prop where
  host : t.host = s.host
  printed : t.journal.printed = s.journal.printed
    ++ (prepared.filter fun a => !s.host.isPresent a.sidecar).map Prepared.plan
  missing : t.journal.events.filter Event.isMissing = s.journal.events.filter Event.isMissing
    ++ (prepared.filter fun a => !s.host.isPresent a.source).map Prepared.missing

theorem Foretells.refl (s : Progress) : Foretells [] s s := ⟨rfl, by simp, by simp⟩

theorem Foretells.trans {first second : List Prepared} (h : Foretells first s t)
    (h' : Foretells second t u) : Foretells (first ++ second) s u where
  host := h'.host.trans h.host
  printed := by
    rw [h'.printed, h.printed, h.host, List.filter_append, List.map_append, List.append_assoc]
  missing := by
    rw [h'.missing, h.missing, h.host, List.filter_append, List.map_append, List.append_assoc]

theorem ownArtifact_foretells (artifact : Artifact) (source sidecar : Path) {overlay : Path}
    (fresh : s.host.isPresent overlay = false) :
    ∃ t, ownArtifact artifact source sidecar overlay true s = .ok sidecar t ∧
      Foretells [⟨artifact, source, sidecar⟩] s t := by
  have hmissing : (sourceEvents artifact source (s.host.isPresent source)).filter Event.isMissing
      = ([⟨artifact, source, sidecar⟩].filter fun a => !s.host.isPresent a.source).map
        Prepared.missing := by
    cases hsource : s.host.isPresent source with
    | true => simp [sourceEvents, hsource]
    | false => simp [sourceEvents, hsource, Event.isMissing, Prepared.missing]
  generalize hrun : ownArtifact artifact source sidecar overlay true s = r
  cases ownArtifact_outcome hrun with
  | reused hthere => cases fresh.symm.trans hthere
  | lost hthere => cases fresh.symm.trans hthere
  | sourceMissing _ hreal => cases hreal
  | kept _ _ hown =>
    refine ⟨_, rfl, rfl, ?_, ?_⟩
    · simp [hown]
    · simp [Progress.logged, hmissing, Event.isMissing]
  | announced _ _ hown =>
    refine ⟨_, rfl, rfl, ?_, ?_⟩
    · simp [Progress.printed, hown, Prepared.plan]
    · simp [Progress.logged, Progress.printed, hmissing]
  | copied _ hreal => cases hreal
  | copyFailed _ hreal => cases hreal

section FirstUse

variable {overlay : Path} {fault : Fault} {roms images : List Prepared}

theorem ownStage_foretells {artifact : Artifact} {lookup : Except Fault Path} {sidecar : Path}
    {prepared : List Prepared} (fresh : s.host.isPresent overlay = false)
    (named : Prepared.of artifact lookup sidecar = .ok prepared) :
    ∃ t, ownStage artifact lookup sidecar overlay true s = .ok sidecar t ∧
      Foretells prepared s t := by
  cases lookup with
  | error fault => cases named
  | ok source =>
    cases named
    exact ownArtifact_foretells artifact source sidecar fresh

theorem ownStage_unnamed {artifact : Artifact} {lookup : Except Fault Path} {sidecar : Path}
    {dryRun : Bool} (unnamed : Prepared.of artifact lookup sidecar = .error fault) :
    ownStage artifact lookup sidecar overlay dryRun s = .error (.io fault) s := by
  cases lookup with
  | error other =>
    cases unnamed
    rfl
  | ok source => cases unnamed

theorem chooseBootImage_foretells (dry : o.dryRun = true) (uboot : o.uboot = true)
    (given : o.overlay = some overlay) (fresh : s.host.isPresent overlay = false)
    (rom : preparedRom s.host o d overlay = .ok roms) :
    ∃ bootImage t, chooseBootImage o d s = .ok bootImage t ∧ Foretells roms s t := by
  unfold preparedRom at rom
  cases hefi : o.efi with
  | true =>
    rw [hefi, if_pos rfl, Except.ok.injEq] at rom
    subst rom
    exact ⟨_, s, chooseBootImage_efi s hefi, .refl s⟩
  | false =>
    rw [hefi, if_neg Bool.false_ne_true] at rom
    obtain ⟨t, hrun, hforetells⟩ := ownStage_foretells fresh rom
    rw [chooseBootImage_uboot s hefi uboot, chooseBootloader_overlay s given, dry, hrun]
    exact ⟨_, t, rfl, hforetells⟩

theorem chooseBootImage_unnamed (uboot : o.uboot = true) (given : o.overlay = some overlay)
    (rom : preparedRom s.host o d overlay = .error fault) :
    chooseBootImage o d s = .error (.io fault) s := by
  unfold preparedRom at rom
  cases hefi : o.efi with
  | true => simp [hefi] at rom
  | false =>
    rw [hefi, if_neg Bool.false_ne_true] at rom
    rw [chooseBootImage_uboot s hefi uboot, chooseBootloader_overlay s given, ownStage_unnamed rom]
    rfl

theorem chooseImage_foretells (dry : o.dryRun = true) (given : o.overlay = some overlay)
    (fresh : s.host.isPresent overlay = false)
    (image : preparedImage s.host o d overlay = .ok images) :
    ∃ path t, chooseImage o d s = .ok path t ∧ Foretells images s t := by
  rw [chooseImage_overlay s given, dry]
  exact ⟨_, ownStage_foretells fresh image⟩

theorem chooseImage_unnamed (given : o.overlay = some overlay)
    (image : preparedImage s.host o d overlay = .error fault) :
    chooseImage o d s = .error (.io fault) s := by
  rw [chooseImage_overlay s given]
  exact ownStage_unnamed image

theorem Prepared.artifact_of {artifact : Artifact} {lookup : Except Fault Path} {sidecar : Path}
    {prepared : List Prepared} (named : Prepared.of artifact lookup sidecar = .ok prepared) :
    prepared.map Prepared.artifact = [artifact] := by
  cases lookup with
  | error fault => cases named
  | ok source =>
    cases named
    rfl

theorem artifacts_of_prepared {h : Host} (rom : preparedRom h o d overlay = .ok roms)
    (image : preparedImage h o d overlay = .ok images) :
    (roms ++ images).map Prepared.artifact = o.artifacts := by
  unfold preparedRom at rom
  rw [List.map_append, Prepared.artifact_of image, Options.artifacts]
  cases hefi : o.efi with
  | true =>
    rw [hefi, if_pos rfl, Except.ok.injEq] at rom
    rw [← rom]
    rfl
  | false =>
    rw [hefi, if_neg Bool.false_ne_true] at rom
    rw [Prepared.artifact_of rom]
    rfl

/-- A preparation has printed what is due of these artifacts, and has reported which sources are not
there. -/
structure Told (prepared : List Prepared) (probe : Probe) (o : Options) (s : Progress)
    (r : Ending Launch) : Prop where
  printed : r.progress.journal.printed = s.journal.printed
    ++ (prepared.filter fun a => !s.host.isPresent a.sidecar).map Prepared.plan
  missing : r.progress.journal.events.filter Event.isMissing
    = s.journal.events.filter Event.isMissing
      ++ (prepared.filter fun a => !s.host.isPresent a.source).map Prepared.missing
      ++ (r.outcome.answers probe o).filter Event.isMissing

theorem Foretells.told_error {prepared : List Prepared} (h : Foretells prepared s t)
    (e : Failure) : Told prepared probe o s (.error e t) :=
  ⟨h.printed, by simpa [Ending.outcome, Outcome.answers] using h.missing⟩

theorem Foretells.told_complete {prepared : List Prepared} (h : Foretells prepared s t)
    (machine : String) (bootImage : BootImage) (image : Path) :
    Told prepared probe o s (complete probe o machine bootImage image t) where
  printed := by rw [complete_printed, h.printed]
  missing := by rw [complete_events Event.isOfFiles_isMissing rfl, h.missing]

/-- A dry run at the first use of an overlay goes through both artifacts, unless a source has no
path to be named by. -/
theorem prepare_foretells {machine : String} {r : Ending Launch} (dry : o.dryRun = true)
    (uboot : o.uboot = true) (known : machineOf s.host o = .ok machine)
    (given : o.overlay = some overlay) (fresh : s.host.isPresent overlay = false)
    (h : prepare probe o s = r) :
    Told (reached s.host o ⟨o.dir, machine⟩ overlay) probe o s r ∧
      ((∃ fault t, r = .error (.io fault) t) ∨
        (reached s.host o ⟨o.dir, machine⟩ overlay).map Prepared.artifact = o.artifacts) := by
  rw [prepare_apply s (.inl uboot)] at h
  unfold reached
  cases hrom : preparedRom s.host o ⟨o.dir, machine⟩ overlay with
  | error fault =>
    simp only [known, chooseBootImage_unnamed uboot given hrom] at h
    subst h
    exact ⟨(Foretells.refl s).told_error _, .inl ⟨fault, s, rfl⟩⟩
  | ok roms =>
    obtain ⟨bootImage, t, hboot, hroms⟩ := chooseBootImage_foretells dry uboot given fresh hrom
    rw [← hroms.host] at fresh ⊢
    simp only [known, hboot] at h
    cases himage : preparedImage t.host o ⟨o.dir, machine⟩ overlay with
    | error fault =>
      simp only [chooseImage_unnamed given himage] at h
      subst h
      exact ⟨hroms.told_error _, .inl ⟨fault, t, rfl⟩⟩
    | ok images =>
      obtain ⟨image, u, hdisk, himages⟩ := chooseImage_foretells dry given fresh himage
      simp only [hdisk] at h
      subst h
      refine ⟨(hroms.trans himages).told_complete _ _ _, .inr ?_⟩
      rw [hroms.host] at himage
      exact artifacts_of_prepared hrom himage

end FirstUse

/-- What a run says of its copies is true. The copies it reports are the files that it made, in
their order, each an overlay's own and holding what its source holds. If it prints anything it makes
no file, and it prints nothing but in a dry run at the first use of an overlay. Such a dry run
reports the sources that are not there, and prints a copy for each of the overlay's own that is
not there, of the artifacts it gets to: all of them, unless it fails because the path of a source
cannot be named. -/
theorem record_is_truthful (probe : Probe) (o : Options) (h : Host) :
    let run := h.run (prepare probe o)
    let answers := run.answers probe o
    (∃ made, FileSystem.Creates h.cwd made h.files run.host.files ∧
      run.journal.events.filter Event.isCopied
        = made.map MadeCopy.event ++ answers.filter Event.isCopied ∧
      (made.map MadeCopy.named).Sublist o.sidecars) ∧
    (run.journal.printed ≠ [] → run.host.files = h.files) ∧
    ((o.dryRun = false ∨ o.overlay = none ∨
        ∃ overlay, o.overlay = some overlay ∧ h.isPresent overlay = true) →
      run.journal.printed = []) ∧
    ∀ machine overlay, o.dryRun = true → o.uboot = true → machineOf h o = .ok machine →
      o.overlay = some overlay → h.isPresent overlay = false →
      let prepared := reached h o ⟨o.dir, machine⟩ overlay
      run.journal.printed
        = (prepared.filter fun a => !h.isPresent a.sidecar).map Prepared.plan ∧
      run.journal.events.filter Event.isMissing
        = (prepared.filter fun a => !h.isPresent a.source).map Prepared.missing
          ++ answers.filter Event.isMissing ∧
      ((∃ fault, run.result = .error (.io fault)) ∨
        prepared.map Prepared.artifact = o.artifacts) := by
  intro run answers
  have hrun : run = Ending.outcome (prepare probe o h.begin) := Host.run_eq h (prepare probe o)
  generalize hend : prepare probe o h.begin = r at hrun
  refine ⟨?copies, ?prints, ?quiet, ?foretold⟩
  case copies =>
    obtain ⟨made, hmakes, hevents, hnamed⟩ := prepare_records hend
    refine ⟨made, ?_, ?_, hnamed⟩
    · rw [hrun, Ending.outcome_host]
      exact hmakes.creates
    · simp only [answers, hrun, Ending.outcome_journal, hevents]
      rfl
  case prints =>
    intro hprints
    rw [hrun, Ending.outcome_journal] at hprints
    cases hdry : o.dryRun with
    | true =>
      rw [hrun, Ending.outcome_host]
      exact prepare_files_dry hdry hend
    | false => exact absurd (prepare_printed hdry hend) hprints
  case quiet =>
    intro hquiet
    rw [hrun, Ending.outcome_journal]
    exact prepare_prints_nothing hquiet hend
  case foretold =>
    intro machine overlay hdry huboot hknown hgiven hfresh prepared
    obtain ⟨htold, hall⟩ := prepare_foretells hdry huboot hknown hgiven hfresh hend
    refine ⟨?_, ?_, ?_⟩
    · rw [hrun, Ending.outcome_journal, htold.printed]
      rfl
    · simp only [answers, hrun, Ending.outcome_journal, htold.missing]
      rfl
    · refine hall.imp_left ?_
      rintro ⟨fault, t, hfailed⟩
      exact ⟨fault, by rw [hrun, hfailed]; rfl⟩

/-- A dry run without the disk image: its copy is printed all the same. -/
theorem record_is_truthful_sample :
    let run := Sample.imageless.run (prepare (.known false) (Sample.options.dry true))
    run.journal.printedText
        = "cp /d/m/u-boot-qemux86-64.rom /v.u-boot.rom\ncp /d/m/i-m.wic /v.img\n" ∧
      run.journal.events.filter Event.isMissing
        = [.sourceMissing .osImage (.ofString "/d/m/i-m.wic")] := by
  intro run
  obtain ⟨-, -, -, hforetold⟩ :=
    record_is_truthful (.known false) (Sample.options.dry true) Sample.imageless
  obtain ⟨hprinted, hmissing, -⟩ :=
    hforetold "m" (.ofString "/v") rfl rfl rfl rfl (by decide +kernel)
  constructor
  · rw [Journal.printedText, hprinted]
    decide +kernel
  · rw [hmissing]
    decide +kernel

/-- In a directory that was removed a dry run cannot name its sources: it fails before it prints the
copies of the overlay's own, or reports that the sources are not there. -/
theorem unnamed_source_is_silent :
    let o : Options :=
      { Sample.options.dry true with dir := .ofString "d", overlay := some (.ofString "/x") }
    let run := Sample.homeless.run (prepare (.known false) o)
    machineOf Sample.homeless o = .ok "m" ∧ o.uboot = true ∧ o.efi = false ∧
      Sample.homeless.isPresent (.ofString "/x") = false ∧
      Sample.homeless.isPresent (romSidecar (.ofString "/x")) = false ∧
      Sample.homeless.isPresent (imageSidecar (.ofString "/x")) = false ∧
      run.journal.printed = [] ∧ run.journal.events = [] ∧ run.result = .error (.io .notFound) := by
  decide +kernel

end Preparation

end LaunchPlan
