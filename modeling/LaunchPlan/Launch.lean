import LaunchPlan.Machine
import LaunchPlan.Network.Mac
import LaunchPlan.Network.Port

/-!
One launch, fully decided, and the command lines for it.
-/

namespace LaunchPlan

structure Launch where
  machine : String
  bootMode : BootMode
  bootImage : BootImage
  /-- The disk image; with an overlay, the overlay's copy of it. -/
  image : Path
  overlay : Option Path
  driveInterface : DriveInterface
  mac : MacAddress
  /-- The address on the second network, if that is in use. -/
  secondaryMac : Option MacAddress
  serialPort : Port
  sshPort : Port
  mem : String
  kvm : Bool
  gui : Bool
  gdb : Bool
  pcap : Option Path
  hostForward : Option String
  deriving DecidableEq

def emulator : String := "qemu-system-x86_64"

def imageTool : String := "qemu-img"

/-- What the kernel is told when it is booted itself: its root is the virtio disk. -/
def kernelArguments : String := "root=/dev/vda rw highres=off console=ttyS0 ip=dhcp"

def commandText (tokens : List String) : String := " ".intercalate tokens

namespace Launch

def bootTokens (l : Launch) : List String :=
  match l.bootImage with
  | .bios path => ["-bios", path.display]
  | .kernel path => ["-kernel", path.display]

/-- The disk; an overlay is named at the end of the line instead. -/
def driveTokens (l : Launch) : List String :=
  match l.overlay with
  | some _ => []
  | none =>
    ["-drive", "file=" ++ l.image.display ++ ",if=" ++ l.driveInterface.name
      ++ ",format=raw,snapshot=on"]

/-- The user-mode network: a forward to the guest's SSH port, and more forwards on demand. -/
def userNetwork (l : Launch) : String :=
  "user,hostfwd=tcp:0.0.0.0:" ++ toString l.sshPort.toNat ++ "-:22,restrict=off"
    ++ (if l.gdb then
          ",hostfwd=tcp:0.0.0.0:" ++ toString Port.debugger.toNat ++ "-:"
            ++ toString Port.debugger.toNat
        else "")
    ++ (match l.hostForward with
        | some forward => ",hostfwd=" ++ forward
        | none => "")

def deviceTokens (l : Launch) : List String :=
  ["-serial", "tcp:127.0.0.1:" ++ toString l.serialPort.toNat ++ ",server,nowait",
    "-m", l.mem,
    "-object", "rng-random,id=rng0,filename=/dev/urandom",
    "-device", "virtio-rng-pci,rng=rng0",
    "-net", l.userNetwork,
    "-net", "nic,macaddr=" ++ l.mac.render]

def pcapTokens (l : Launch) : List String :=
  match l.pcap with
  | some path => ["-net", "dump,file=" ++ path.display]
  | none => []

/-- The second network, a multicast group on the host. -/
def secondaryTokens (l : Launch) : List String :=
  match l.secondaryMac with
  | some mac =>
    ["-netdev", "socket,id=vlan1,mcast=230.0.0.1:1234,localaddr=127.0.0.1",
      "-device", "e1000,netdev=vlan1,mac=" ++ mac.render]
  | none => []

def screenTokens (l : Launch) : List String :=
  if l.gui then ["-usb", "-device", "usb-tablet", "-show-cursor", "-vga", "std"]
  else ["-nographic", "-monitor", "null"]

def cpuTokens (l : Launch) : List String :=
  if l.kvm then ["-enable-kvm", "-cpu", "host"] else ["-cpu", "Haswell"]

def overlayTokens (l : Launch) : List String :=
  match l.overlay with
  | some path => [path.display]
  | none => []

def appendTokens (l : Launch) : List String :=
  match l.bootImage with
  | .bios _ => []
  | .kernel _ => ["-append", kernelArguments]

def command (l : Launch) : List String :=
  emulator :: (l.bootTokens ++ l.driveTokens ++ l.deviceTokens ++ l.pcapTokens
    ++ l.secondaryTokens ++ l.screenTokens ++ l.cpuTokens ++ l.overlayTokens ++ l.appendTokens)

/-- The command that makes the overlay on top of the disk image, if there is to be one. -/
def overlayCommand (l : Launch) : Option (List String) :=
  l.overlay.map fun overlay =>
    [imageTool, "create", "-o", "backing_file=" ++ l.image.display, "-f", "qcow2",
      overlay.display]

end Launch

end LaunchPlan
