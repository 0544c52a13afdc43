import LaunchPlan.Preparation.Decide
import LaunchPlan.Proofs.Network.Trace
import LaunchPlan.Proofs.Preparation.Step

/-!
The stages of a preparation: the machine, the boot image, the disk image, and what is left once
the files are known. Main statement: `complete_apply`, the last stage as an equation in the ports
that are held, the dice and what the probe says.
-/

namespace LaunchPlan

namespace Options

variable (o : Options)

/-- The addresses of a launch, and the dice after they were drawn. -/
def addresses (dice : Dice) : (MacAddress × Option MacAddress) × Dice :=
  let first := match o.mac with
    | .given mac => (mac, dice)
    | .detect => dice.roll
  if o.secondaryNetwork then
    let second := first.2.rollDistinct first.1
    ((first.1, some second.1), second.2)
  else ((first.1, none), first.2)

def kvmOn (probe : Probe) (h : Host) : Bool :=
  match o.kvm with
  | .given kvm => kvm
  | .detect => (probe h).available

theorem kvmOn_of_given {o : Options} {kvm : Bool} (given : o.kvm = .given kvm) (probe : Probe)
    (h : Host) : o.kvmOn probe h = kvm := by
  simp only [kvmOn, given]

/-- The launch that options come to, given all that was found. -/
def launch (machine : String) (bootImage : BootImage) (image : Path)
    (addresses : MacAddress × Option MacAddress) (serialPort sshPort : Port) (kvm : Bool) :
    Launch where
  machine := machine
  bootMode := BootMode.ofFlags o.efi o.uboot
  bootImage := bootImage
  image := image
  overlay := o.overlay
  driveInterface := DriveInterface.ofUboot o.uboot
  mac := addresses.1
  secondaryMac := addresses.2
  serialPort := serialPort
  sshPort := sshPort
  mem := (Preparation.unlessEmpty o.mem).getD Preparation.defaultMemory
  kvm := kvm
  gui := !o.noGui
  gdb := o.gdb
  pcap := o.pcap
  hostForward := Preparation.unlessEmpty o.hostForward

end Options

namespace Progress

variable (s : Progress)

def drawn (o : Options) : Progress := { s with host.dice := (o.addresses s.host.dice).2 }

/-- The progress after the probe was asked, if it has to be. -/
def asked (probe : Probe) (o : Options) : Progress :=
  match o.kvm with
  | .given _ => s
  | .detect =>
    { s with
      journal.events := s.journal.events ++ (probe s.host).events
      journal.probeCalls := s.journal.probeCalls + 1 }

@[simp] theorem asked_host (probe : Probe) (o : Options) : (s.asked probe o).host = s.host := by
  unfold asked
  split <;> rfl

@[simp] theorem asked_printed (probe : Probe) (o : Options) :
    (s.asked probe o).journal.printed = s.journal.printed := by
  unfold asked
  split <;> rfl

@[simp] theorem drawn_host (o : Options) :
    (s.drawn o).host = { s.host with dice := (o.addresses s.host.dice).2 } := rfl

end Progress

namespace Port

def searchEvents (held : List Port) (start : Port) : List Event :=
  let found := search held start
  found.skipped.map .portSkipped
    ++ (if found.found = none then [.windowExhausted start (windowEnd start)] else [])

/-- The two ports of a launch: one for the serial line and one for SSH. -/
def pair (held : List Port) : Except Failure (Port × Port) :=
  match (search held serialStart).found, (search held sshStart).found with
  | none, _ => .error (.portExhausted serialStart (windowEnd serialStart))
  | some _, none => .error (.portExhausted sshStart (windowEnd sshStart))
  | some serialPort, some sshPort => .ok (serialPort, sshPort)

theorem pair_error {held : List Port} {e : Failure} (h : pair held = .error e) :
    ∃ start stop, e = .portExhausted start stop := by
  unfold pair at h
  split at h
  · cases h
    exact ⟨_, _, rfl⟩
  · cases h
    exact ⟨_, _, rfl⟩
  · cases h

/-- What the searches for the two ports log. Without the first port the second is not looked for. -/
def pairEvents (held : List Port) : List Event :=
  searchEvents held serialStart
    ++ (if (search held serialStart).found = none then [] else searchEvents held sshStart)

end Port

namespace Preparation

variable {probe : Probe} {o : Options} {d : Deployment} (s : Progress)

/-- The machine of a launch, given or found. -/
def machineOf (h : Host) (o : Options) : Except Failure String :=
  match o.machine with
  | .given machine => .ok machine
  | .detect => soleMachine h o.dir

theorem chooseMachine_apply :
    chooseMachine o s = match machineOf s.host o with
      | .ok machine => .ok machine s
      | .error e => .error e s := by
  unfold chooseMachine machineOf Setting.orDetect
  cases o.machine with
  | given machine => rfl
  | detect =>
    simp only [bind_apply, host_apply]
    cases soleMachine s.host o.dir <;> rfl

/-- The search of a host finds what a search finds that only asks which ports are held. -/
theorem firstFree_apply (ports : List Port) :
    Port.firstFree testPort skipPort ports s =
      let search := Port.searchIn (Port.isFree s.host.held) ports
      .ok search.found (s.logged (search.skipped.map .portSkipped)) := by
  induction ports generalizing s with
  | nil => simp [Port.firstFree]
  | cons p rest ih =>
    rw [Port.searchIn_cons]
    simp only [Port.firstFree, testPort, skipPort, bind_apply, host_apply, pure_apply]
    cases Port.isFree s.host.held p with
    | true => simp
    | false => simp [bind_apply, ih, Progress.logged_logged]

theorem freePort_apply (start : Port) :
    freePort start s = match (Port.search s.host.held start).found with
      | some port => .ok port (s.logged (Port.searchEvents s.host.held start))
      | none => .error (.portExhausted start (Port.windowEnd start))
          (s.logged (Port.searchEvents s.host.held start)) := by
  have hsearch : Port.firstFree testPort skipPort (Port.window start) s
      = .ok (Port.search s.host.held start).found
        (s.logged ((Port.search s.host.held start).skipped.map .portSkipped)) :=
    firstFree_apply s (Port.window start)
  simp only [freePort, bind_apply, hsearch, Port.searchEvents]
  cases (Port.search s.host.held start).found with
  | some port => simp
  | none => simp [bind_apply, Progress.logged_logged]

theorem chooseKvm_apply : chooseKvm probe o s = .ok (o.kvmOn probe s.host) (s.asked probe o) := by
  unfold chooseKvm Options.kvmOn Progress.asked Setting.orDetect
  cases o.kvm with
  | given kvm => rfl
  | detect => rfl

theorem addresses_apply {α : Type} (f : MacAddress → Option MacAddress → Preparation α) :
    (do
      let mac ← o.mac.orDetect (roll Dice.roll)
      let secondaryMac ←
        if o.secondaryNetwork then some <$> roll (Dice.rollDistinct · mac) else pure none
      f mac secondaryMac : Preparation α) s
    = f (o.addresses s.host.dice).1.1 (o.addresses s.host.dice).1.2 (s.drawn o) := by
  unfold Options.addresses Progress.drawn Options.addresses Setting.orDetect
  cases o.mac with
  | given mac => cases o.secondaryNetwork <;> rfl
  | detect => cases o.secondaryNetwork <;> rfl

/-- The last stage depends on the ports that are held, the dice and what the probe says. -/
theorem complete_apply (machine : String) (bootImage : BootImage) (image : Path) :
    complete probe o machine bootImage image s =
      let t := (s.drawn o).logged (Port.pairEvents s.host.held)
      match Port.pair s.host.held with
      | .error e => .error e t
      | .ok (serialPort, sshPort) =>
        let launch := o.launch machine bootImage image (o.addresses s.host.dice).1 serialPort
          sshPort (o.kvmOn probe t.host)
        .ok launch ((t.asked probe o).logged [.decided launch]) := by
  unfold complete Port.pair Port.pairEvents
  rw [addresses_apply]
  simp only [bind_apply, freePort_apply, chooseKvm_apply, Progress.drawn_host]
  cases (Port.search s.host.held Port.serialStart).found with
  | none => simp
  | some serialPort =>
    cases hssh : (Port.search s.host.held Port.sshStart).found with
    | none => simp [hssh, Progress.logged_logged]
    | some sshPort => simp [hssh, Progress.logged_logged, Options.launch]

/-- The last stage only draws addresses. -/
theorem complete_host (machine : String) (bootImage : BootImage) (image : Path) :
    (Ending.progress (complete probe o machine bootImage image s)).host
      = { s.host with dice := (o.addresses s.host.dice).2 } := by
  rw [complete_apply]
  cases Port.pair s.host.held with
  | error e => rfl
  | ok ports => simp [Ending.progress]

theorem complete_ok {s t : Progress} {machine : String} {bootImage : BootImage} {image : Path}
    {launch : Launch} (h : complete probe o machine bootImage image s = .ok launch t) :
    ∃ serialPort sshPort, Port.pair s.host.held = .ok (serialPort, sshPort) ∧
      launch = o.launch machine bootImage image (o.addresses s.host.dice).1 serialPort sshPort
        (o.kvmOn probe t.host) ∧
      t.host = { s.host with dice := (o.addresses s.host.dice).2 } := by
  have hhost : (Ending.progress (complete probe o machine bootImage image s)).host
      = { s.host with dice := (o.addresses s.host.dice).2 } := complete_host s machine bootImage image
  rw [h, Ending.progress_ok] at hhost
  rw [complete_apply] at h
  cases hports : Port.pair s.host.held with
  | error e => simp [hports] at h
  | ok ports =>
    simp only [hports, Progress.logged_host, Progress.drawn_host] at h
    cases h
    exact ⟨ports.1, ports.2, rfl, by rw [hhost], hhost⟩

/-- A stage that takes an artifact where `lookup` says. -/
def plainStage (artifact : Artifact) (lookup : Except Fault Path) (dryRun : Bool) (s : Progress) :
    Ending Path :=
  match lookup with
  | .ok path =>
    if isAmiss s.host path none dryRun then .error (.missingArtifact artifact path) s
    else .ok path s
  | .error fault => .error (.io fault) s

/-- A stage that takes an overlay's own copy of the artifact that is where `lookup` says. -/
def ownStage (artifact : Artifact) (lookup : Except Fault Path) (sidecar overlay : Path)
    (dryRun : Bool) (s : Progress) : Ending Path :=
  match lookup with
  | .ok source => ownArtifact artifact source sidecar overlay dryRun s
  | .error fault => .error (.io fault) s

theorem ownStage_ok {s t : Progress} {artifact : Artifact} {lookup : Except Fault Path}
    {sidecar overlay own : Path} {dryRun : Bool}
    (h : ownStage artifact lookup sidecar overlay dryRun s = .ok own t) :
    own = sidecar ∧ ∃ source, lookup = .ok source := by
  cases lookup with
  | error fault => cases h
  | ok source => exact ⟨ownArtifact_value h, source, rfl⟩

theorem imageSource_of_present {h : Host} (present : h.isPresent (.ofString o.imageName) = true) :
    imageSource h o d = h.files.canonical h.cwd (.ofString o.imageName) := by
  simp [imageSource, present]

theorem imageSource_of_absent {h : Host} (absent : h.isPresent (.ofString o.imageName) = false) :
    imageSource h o d = .ok (d.image o.imageName (diskExtension o.uboot d.machine)) := by
  simp [imageSource, absent]

theorem settle_apply (p : Path) :
    settle p s = match s.host.files.settle s.host.cwd p with
      | .ok q => .ok q s
      | .error fault => .error (.io fault) s := by
  simp only [settle, bind_apply, host_apply]
  cases s.host.files.settle s.host.cwd p <;> rfl

theorem chooseKernel_apply :
    chooseKernel o d s
      = plainStage .kernelImage (s.host.files.settle s.host.cwd d.kernel) o.dryRun s := by
  simp only [chooseKernel, bind_apply, settle_apply, requirePresent_apply, pure_apply, plainStage]
  cases s.host.files.settle s.host.cwd d.kernel with
  | ok kernel => by_cases ha : isAmiss s.host kernel none o.dryRun = true <;> simp [ha]
  | error fault => rfl

theorem chooseBootloader_plain (plain : o.overlay = none) :
    chooseBootloader o d s = plainStage .ubootImage (romSource s.host o d) o.dryRun s := by
  simp only [chooseBootloader, bind_apply, host_apply, plain, requirePresent_apply, pure_apply,
    plainStage]
  cases romSource s.host o d with
  | ok rom => by_cases ha : isAmiss s.host rom none o.dryRun = true <;> simp [ha]
  | error fault => rfl

theorem chooseBootloader_overlay {overlay : Path} (given : o.overlay = some overlay) :
    chooseBootloader o d s
      = ownStage .ubootImage (romSource s.host o d) (romSidecar overlay) overlay o.dryRun s := by
  simp only [chooseBootloader, bind_apply, host_apply, given, ownStage, ownArtifact]
  cases romSource s.host o d <;> rfl

theorem chooseImage_plain (plain : o.overlay = none) :
    chooseImage o d s
      = plainStage .osImage (imageSource s.host o d >>= s.host.files.settle s.host.cwd)
          o.dryRun s := by
  simp only [chooseImage, bind_apply, host_apply, plain, requirePresent_apply, pure_apply,
    plainStage]
  cases imageSource s.host o d with
  | error fault => rfl
  | ok source =>
    simp only [ofIo_ok, settle_apply, bind, Except.bind]
    cases s.host.files.settle s.host.cwd source with
    | ok image => by_cases ha : isAmiss s.host image none o.dryRun = true <;> simp [ha]
    | error fault => rfl

theorem chooseImage_overlay {overlay : Path} (given : o.overlay = some overlay) :
    chooseImage o d s
      = ownStage .osImage (imageSource s.host o d) (imageSidecar overlay) overlay o.dryRun s := by
  simp only [chooseImage, bind_apply, host_apply, given, ownStage, ownArtifact]
  cases imageSource s.host o d <;> rfl

theorem chooseImage_own {s t : Progress} {overlay image : Path} (given : o.overlay = some overlay)
    (h : chooseImage o d s = .ok image t) : image = imageSidecar overlay := by
  rw [chooseImage_overlay s given] at h
  exact (ownStage_ok h).1

end Preparation

end LaunchPlan
