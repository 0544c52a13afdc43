import LaunchPlan.Options.Basic

/-!
The options by name. A field takes a value of its kind; the readings of a value say what it can be
taken as, so that one rule serves every notation of values. Main statement: `ofName?_name`, a field
is known by its name.
-/

namespace LaunchPlan

/-- The fields of the options, in the order in which they are declared. -/
inductive Field where
  | machine | dir | imageName | efi | uboot | bootloader | overlay | mem | mac | kvm
  | noGui | gdb | pcap | secondaryNetwork | hostForward | dryRun
  deriving DecidableEq

namespace Field

def all : List Field :=
  [.machine, .dir, .imageName, .efi, .uboot, .bootloader, .overlay, .mem, .mac, .kvm,
    .noGui, .gdb, .pcap, .secondaryNetwork, .hostForward, .dryRun]

def name : Field → String
  | .machine => "machine"
  | .dir => "dir"
  | .imageName => "image_name"
  | .efi => "efi"
  | .uboot => "uboot"
  | .bootloader => "bootloader"
  | .overlay => "overlay"
  | .mem => "mem"
  | .mac => "mac"
  | .kvm => "kvm"
  | .noGui => "no_gui"
  | .gdb => "gdb"
  | .pcap => "pcap"
  | .secondaryNetwork => "secondary_network"
  | .hostForward => "host_forward"
  | .dryRun => "dry_run"

def ofName? (s : String) : Option Field := all.find? fun f => f.name = s

theorem ofName?_name (f : Field) : ofName? f.name = some f := by
  cases f <;> decide

end Field

inductive OptionsFault where
  | malformed
  | invalidMac (text : String)
  deriving DecidableEq

structure Reading where
  /-- Whether it stands for absence, where a field may be absent; `none` if it cannot be told. -/
  absent : Option Bool
  text : Option String
  flag : Option Bool
  deriving DecidableEq

namespace Reading

def toText (r : Reading) : Except OptionsFault String :=
  match r.text with
  | some s => .ok s
  | none => .error .malformed

def toFlag (r : Reading) : Except OptionsFault Bool :=
  match r.flag with
  | some b => .ok b
  | none => .error .malformed

/-- The value read with `read`, unless it stands for absence. -/
def optional {α : Type} (r : Reading) (read : Reading → Except OptionsFault α) :
    Except OptionsFault (Option α) :=
  match r.absent with
  | some true => .ok none
  | some false => (read r).map some
  | none => .error .malformed

def toPath (r : Reading) : Except OptionsFault Path := r.toText.map .ofString

def toMac (r : Reading) : Except OptionsFault MacAddress := do
  let s ← r.toText
  match MacAddress.parse? s with
  | some m => .ok m
  | none => .error (.invalidMac s)

end Reading

/-- The options with one field set to what is read for it. -/
def Options.set (o : Options) (r : Reading) : Field → Except OptionsFault Options
  | .machine => return { o with machine := .ofOption (← r.optional Reading.toText) }
  | .dir => return { o with dir := ← r.toPath }
  | .imageName => return { o with imageName := ← r.toText }
  | .efi => return { o with efi := ← r.toFlag }
  | .uboot => return { o with uboot := ← r.toFlag }
  | .bootloader => return { o with bootloader := ← r.optional Reading.toPath }
  | .overlay => return { o with overlay := ← r.optional Reading.toPath }
  | .mem => return { o with mem := ← r.optional Reading.toText }
  | .mac => return { o with mac := .ofOption (← r.optional Reading.toMac) }
  | .kvm => return { o with kvm := .ofOption (← r.optional Reading.toFlag) }
  | .noGui => return { o with noGui := ← r.toFlag }
  | .gdb => return { o with gdb := ← r.toFlag }
  | .pcap => return { o with pcap := ← r.optional Reading.toPath }
  | .secondaryNetwork => return { o with secondaryNetwork := ← r.toFlag }
  | .hostForward => return { o with hostForward := ← r.optional Reading.toText }
  | .dryRun => return { o with dryRun := ← r.toFlag }

end LaunchPlan
