import LaunchPlan.Launch
import LaunchPlan.Error

/-!
What is logged while a launch is prepared.
-/

namespace LaunchPlan

inductive ExitStatus where
  | code (n : UInt8)
  | killed
  deriving DecidableEq

def ExitStatus.text : ExitStatus → String
  | .code n => "exit status: " ++ toString n.toNat
  | .killed => "signal: 9 (SIGKILL)"

inductive Event where
  | sidecarReused (artifact : Artifact) (overlay sidecar : Path)
  | sourceMissing (artifact : Artifact) (source : Path)
  | sidecarPresent (artifact : Artifact) (sidecar : Path)
  | copied (artifact : Artifact) (source sidecar : Path)
  | portSkipped (port : Port)
  | windowExhausted (start stop : Port)
  | probeMissing (fault : SearchFault)
  | probeRefused (status : ExitStatus)
  | probeUnstartable (fault : Fault)
  | decided (launch : Launch)
  | commandAssembled (tokens : List String)
  deriving DecidableEq

inductive Level where
  | debug
  | info
  | warn
  deriving DecidableEq

def Level.name : Level → String
  | .debug => "DEBUG"
  | .info => "INFO"
  | .warn => "WARN"

/-- The program that says whether the host can accelerate the guest. -/
def probeProgram : String := "kvm-ok"

namespace Event

def level : Event → Level
  | .sidecarReused .. | .sidecarPresent .. | .portSkipped _ | .probeMissing _ | .probeRefused _
  | .probeUnstartable _ | .commandAssembled _ => .debug
  | .copied .. | .decided _ => .info
  | .sourceMissing .. | .windowExhausted .. => .warn

def message : Event → String
  | .sidecarReused artifact _ _ => "overlay exists, reusing " ++ artifact.label
  | .sourceMissing artifact _ => artifact.label ++ " missing (dry run)"
  | .sidecarPresent artifact _ => artifact.label ++ " sidecar already present"
  | .copied artifact _ _ => "copied " ++ artifact.label ++ " for overlay"
  | .portSkipped _ => "skipping port"
  | .windowExhausted _ _ => "no free TCP port in window"
  | .probeMissing _ => probeProgram ++ " not found, assuming no KVM"
  | .probeRefused _ => probeProgram ++ " reported no KVM"
  | .probeUnstartable _ => probeProgram ++ " failed to spawn, assuming no KVM"
  | .decided _ => "resolved launch configuration"
  | .commandAssembled _ => "qemu command line"

def overlayText : Option Path → String
  | some path => "Some(" ++ path.quote ++ ")"
  | none => "None"

def fields : Event → List (String × String)
  | .sidecarReused _ overlay sidecar =>
    [("overlay", overlay.display), ("sidecar", sidecar.display)]
  | .sourceMissing _ source => [("path", source.display)]
  | .sidecarPresent _ sidecar => [("sidecar", sidecar.display)]
  | .copied _ source sidecar => [("from", source.display), ("to", sidecar.display)]
  | .portSkipped port => [("port", toString port.toNat)]
  | .windowExhausted start stop =>
    [("start", toString start.toNat), ("end", toString stop.toNat)]
  | .probeMissing fault => [("error", fault.reason)]
  | .probeRefused status => [("status", status.text)]
  | .probeUnstartable fault => [("error", fault.reason)]
  | .decided l =>
    [("machine", l.machine), ("boot_mode", l.bootMode.name),
      ("boot_image", l.bootImage.path.display), ("image", l.image.display),
      ("overlay", overlayText l.overlay), ("serial_port", toString l.serialPort.toNat),
      ("ssh_port", toString l.sshPort.toNat), ("kvm", toString l.kvm)]
  | .commandAssembled tokens => [("command", commandText tokens)]

end Event

/-- What is logged when the command of a launch is put together. -/
def Launch.assembly (l : Launch) : Event := .commandAssembled l.command

end LaunchPlan
