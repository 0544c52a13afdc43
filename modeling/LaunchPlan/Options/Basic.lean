import LaunchPlan.Network.Mac
import LaunchPlan.Path

/-!
What the caller decides about a launch, and what is left to detection.
-/

namespace LaunchPlan

/-- A value that is given, or left to be detected. -/
inductive Setting (α : Type) where
  | given (value : α)
  | detect
  deriving DecidableEq

namespace Setting

def ofOption {α : Type} : Option α → Setting α
  | some value => .given value
  | none => .detect

def toOption {α : Type} : Setting α → Option α
  | .given value => some value
  | .detect => none

/-- The given value, or else what `find` finds. -/
def orDetect {α : Type} {m : Type → Type} [Monad m] (setting : Setting α) (find : m α) : m α :=
  match setting with
  | .given value => pure value
  | .detect => find

@[simp] theorem toOption_ofOption {α : Type} (o : Option α) : (ofOption o).toOption = o := by
  cases o <;> rfl

@[simp] theorem ofOption_toOption {α : Type} (c : Setting α) : ofOption c.toOption = c := by
  cases c <;> rfl

end Setting

structure Options where
  machine : Setting String
  /-- Where the build leaves its machines. -/
  dir : Path
  imageName : String
  efi : Bool
  uboot : Bool
  bootloader : Option Path
  /-- The disk that takes all writes; the files under it are copied next to it. -/
  overlay : Option Path
  mem : Option String
  mac : Setting MacAddress
  kvm : Setting Bool
  noGui : Bool
  gdb : Bool
  pcap : Option Path
  secondaryNetwork : Bool
  hostForward : Option String
  dryRun : Bool
  deriving DecidableEq

namespace Options

def default : Options where
  machine := .detect
  dir := .ofString "tmp/deploy/images"
  imageName := "core-image-minimal"
  efi := false
  uboot := true
  bootloader := none
  overlay := none
  mem := none
  mac := .detect
  kvm := .detect
  noGui := false
  gdb := false
  pcap := none
  secondaryNetwork := false
  hostForward := none
  dryRun := false

/-- The options with their paths read from `base`. The image stays as it is, since it is usually
the name of a recipe. -/
def rebase (o : Options) (base : Path) : Options :=
  { o with
    dir := base.join o.dir
    bootloader := o.bootloader.map base.join
    overlay := o.overlay.map base.join
    pcap := o.pcap.map base.join }

end Options

end LaunchPlan
