import LaunchPlan.Options.Basic
import LaunchPlan.Preparation.Sidecar
import LaunchPlan.Probe

/-!
From the caller's options and the host to one decided launch. The steps run in a fixed order. Only
a first use of an overlay changes a file system.
-/

namespace LaunchPlan

namespace Preparation

/-- The machine whose name is the only entry of the directory. -/
def soleMachine (h : Host) (dir : Path) : Except Failure String :=
  if !h.files.isDirectory h.cwd dir then .error (.config (.imagesDirectoryMissing dir))
  else
    match h.files.list h.cwd dir with
    | .error fault => .error (.io fault)
    | .ok [name] =>
      match Text.decode? name with
      | some machine => .ok machine
      | none => .error (.config (.machineNotUtf8 name))
    | .ok [] | .ok (_ :: _ :: _) => .error (.config (.machineAmbiguous dir))

def chooseMachine (o : Options) : Preparation String :=
  o.machine.orDetect do
    match soleMachine (← host) o.dir with
    | .ok machine => return machine
    | .error e => throw e

/-- The U-Boot image that is named, or else the deployment's, its path made absolute. -/
def romSource (h : Host) (o : Options) (d : Deployment) : Except Fault Path :=
  match o.bootloader with
  | some path => .ok path
  | none => FileSystem.absolute h.cwd d.bootloader

def chooseBootloader (o : Options) (d : Deployment) : Preparation Path := do
  let source ← ofIo (romSource (← host) o d)
  let rom ← match o.overlay with
    | some overlay => ownCopy .ubootImage source (romSidecar overlay) overlay o.dryRun
    | none => pure source
  requirePresent .ubootImage rom o.overlay o.dryRun
  return rom

/-- The path made absolute, without links if it is present. -/
def settle (p : Path) : Preparation Path := do
  let h ← host
  ofIo (h.files.settle h.cwd p)

def chooseKernel (o : Options) (d : Deployment) : Preparation Path := do
  let kernel ← settle d.kernel
  requirePresent .kernelImage kernel none o.dryRun
  return kernel

def chooseBootImage (o : Options) (d : Deployment) : Preparation BootImage :=
  match BootMode.ofFlags o.efi o.uboot with
  | .efi => return .bios efiFirmware
  | .uboot => return .bios (← chooseBootloader o d)
  | .directKernel => return .kernel (← chooseKernel o d)

/-- The image that is named if it is the path of something, and else that of the recipe. -/
def imageSource (h : Host) (o : Options) (d : Deployment) : Except Fault Path :=
  let given := Path.ofString o.imageName
  if h.isPresent given then h.files.canonical h.cwd given
  else .ok (d.image o.imageName (diskExtension o.uboot d.machine))

def chooseImage (o : Options) (d : Deployment) : Preparation Path := do
  let source ← ofIo (imageSource (← host) o d)
  let image ← match o.overlay with
    | some overlay => ownCopy .osImage source (imageSidecar overlay) overlay o.dryRun
    | none => settle source
  requirePresent .osImage image o.overlay o.dryRun
  return image

/-- Bind a port and give it back at once: nothing is reserved. -/
def testPort (p : Port) : Preparation Bool := return Port.isFree (← host).held p

def skipPort (p : Port) : Preparation Unit := record [.portSkipped p]

def freePort (start : Port) : Preparation Port := do
  match ← Port.firstFree testPort skipPort (Port.window start) with
  | some port => return port
  | none =>
    record [.windowExhausted start (Port.windowEnd start)]
    throw (.portExhausted start (Port.windowEnd start))

def chooseKvm (probe : Probe) (o : Options) : Preparation Bool :=
  o.kvm.orDetect do
    let report := probe (← host)
    modify fun s => { s with journal.probeCalls := s.journal.probeCalls + 1 }
    record report.events
    return report.available

def unlessEmpty (s : Option String) : Option String := s.filter (· ≠ "")

def defaultMemory : String := "1G"

/-- Decide what remains of a launch once its machine and files are known. -/
def complete (probe : Probe) (o : Options) (machine : String) (bootImage : BootImage)
    (image : Path) : Preparation Launch := do
  let mac ← o.mac.orDetect (roll Dice.roll)
  let secondaryMac ←
    if o.secondaryNetwork then some <$> roll (Dice.rollDistinct · mac) else pure none
  let serialPort ← freePort Port.serialStart
  let sshPort ← freePort Port.sshStart
  let kvm ← chooseKvm probe o
  let launch : Launch := {
    machine, bootImage, image, mac, secondaryMac, serialPort, sshPort, kvm
    bootMode := BootMode.ofFlags o.efi o.uboot
    overlay := o.overlay
    driveInterface := DriveInterface.ofUboot o.uboot
    mem := (unlessEmpty o.mem).getD defaultMemory
    gui := !o.noGui
    gdb := o.gdb
    pcap := o.pcap
    hostForward := unlessEmpty o.hostForward }
  record [.decided launch]
  return launch

def prepare (probe : Probe) (o : Options) : Preparation Launch := do
  if !o.uboot && o.overlay.isSome then throw (.config .overlayWithoutUboot)
  let machine ← chooseMachine o
  let deployment : Deployment := ⟨o.dir, machine⟩
  let bootImage ← chooseBootImage o deployment
  let image ← chooseImage o deployment
  complete probe o machine bootImage image

end Preparation

/-- Whether the overlay is still to be made. -/
def Launch.lacksOverlay (l : Launch) (h : Host) : Bool :=
  l.overlay.any fun overlay => !h.isPresent overlay

end LaunchPlan
