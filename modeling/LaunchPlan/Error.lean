import LaunchPlan.FileSystem.Fault
import LaunchPlan.Machine
import LaunchPlan.Network.Mac
import LaunchPlan.Network.Port
import LaunchPlan.Options.Field

/-!
Why a launch cannot be prepared, and the words for each cause.
-/

namespace LaunchPlan

inductive ConfigFault where
  | overlayWithoutUboot
  | imagesDirectoryMissing (dir : Path)
  /-- The directory does not hold exactly one entry. -/
  | machineAmbiguous (dir : Path)
  | machineNotUtf8 (name : Name)
  | invalidMac (text : String)
  | unreadableOptions (path : Path) (fault : Fault)
  | malformedOptions (path : Path) (fault : OptionsFault)
  deriving DecidableEq

inductive Failure where
  | config (fault : ConfigFault)
  | missingArtifact (artifact : Artifact) (path : Path)
  /-- No port of a window is free; `stop` is the end of the window. -/
  | portExhausted (start stop : Port)
  | copy (source target : Path) (fault : Fault)
  | io (fault : Fault)
  deriving DecidableEq

def OptionsFault.detail : OptionsFault → String
  | .malformed => ""
  | .invalidMac s => ": invalid MAC address: " ++ Text.quote s

def ConfigFault.message : ConfigFault → String
  | .overlayWithoutUboot => "an overlay is only supported with the U-Boot loader"
  | .imagesDirectoryMissing dir =>
    "directory " ++ dir.display
      ++ " does not exist, please specify a machine or a valid images directory"
  | .machineAmbiguous dir =>
    "could not autodetect machine type: expected exactly one entry in " ++ dir.display
      ++ ", maybe machine qemux86-64?"
  | .machineNotUtf8 name => "machine directory name is not UTF-8: " ++ Text.quoteBytes name
  | .invalidMac s => "invalid MAC address: " ++ Text.quote s
  | .unreadableOptions path fault => "read " ++ path.display ++ ": " ++ fault.reason
  | .malformedOptions path fault => "parse " ++ path.display ++ fault.detail

def Failure.message : Failure → String
  | .config fault => "invalid configuration: " ++ fault.message
  | .missingArtifact artifact path => artifact.label ++ " " ++ path.display ++ " does not exist"
  | .portExhausted start stop =>
    "could not find a free TCP port in " ++ toString start.toNat ++ ".." ++ toString stop.toNat
  | .copy source target fault =>
    "copy " ++ source.display ++ " to " ++ target.display ++ ": " ++ fault.reason
  | .io fault => "IO error: " ++ fault.reason

/-- The address that a text spells. -/
def MacAddress.parse (s : String) : Except ConfigFault MacAddress :=
  match parse? s with
  | some m => .ok m
  | none => .error (.invalidMac s)

end LaunchPlan
