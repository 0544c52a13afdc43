import LaunchPlan.Path

/-!
How a virtual machine is started, and where the build leaves what it is started from.
-/

namespace LaunchPlan

inductive BootMode where
  | uboot
  | efi
  /-- The kernel itself, without firmware of the build. -/
  | directKernel
  deriving DecidableEq

/-- UEFI wins over everything; without it U-Boot is used unless it is off. -/
def BootMode.ofFlags (efi uboot : Bool) : BootMode :=
  if efi then .efi else if uboot then .uboot else .directKernel

def BootMode.name : BootMode → String
  | .uboot => "uboot"
  | .efi => "efi"
  | .directKernel => "direct-kernel"

inductive BootImage where
  | bios (path : Path)
  | kernel (path : Path)
  deriving DecidableEq

def BootImage.path : BootImage → Path
  | .bios p | .kernel p => p

inductive DriveInterface where
  | ide
  | virtio
  deriving DecidableEq

/-- U-Boot reads IDE disks; the kernel has a driver for virtio. -/
def DriveInterface.ofUboot (uboot : Bool) : DriveInterface :=
  if uboot then .ide else .virtio

def DriveInterface.name : DriveInterface → String
  | .ide => "ide"
  | .virtio => "virtio"

/-- The machines whose disk images have an extension of their own when U-Boot starts them. -/
def diskExtensions : List (String × String) :=
  [("intel-corei7-64", "wic"), ("qemux86-64", "ota-ext4")]

/-- The extension of a machine's disk image. Without U-Boot the emulated machine boots the plain
root file system. -/
def diskExtension (uboot : Bool) (machine : String) : String :=
  if machine = "qemux86-64" ∧ uboot = false then "ext4"
  else (diskExtensions.lookup machine).getD "wic"

inductive Artifact where
  | ubootImage
  | kernelImage
  | osImage
  deriving DecidableEq

def Artifact.label : Artifact → String
  | .ubootImage => "U-Boot image"
  | .kernelImage => "kernel image"
  | .osImage => "OS image"

/-- UEFI firmware, which the emulator looks up among its own files. -/
def efiFirmware : Path := .ofString "OVMF.fd"

/-- What the build leaves for one machine: everything lies in a directory of the machine's name.
-/
structure Deployment where
  directory : Path
  machine : String
  deriving DecidableEq

namespace Deployment

def machineDirectory (d : Deployment) : Path := d.directory.join (.ofString d.machine)

def bootloader (d : Deployment) : Path :=
  d.machineDirectory.join (.ofString "u-boot-qemux86-64.rom")

def kernel (d : Deployment) : Path :=
  d.machineDirectory.join (.ofString "bzImage-qemux86-64.bin")

def image (d : Deployment) (recipe extension : String) : Path :=
  d.machineDirectory.join (.ofString (recipe ++ "-" ++ d.machine ++ "." ++ extension))

end Deployment

/-- An overlay's own copy of the U-Boot image. -/
def romSidecar (overlay : Path) : Path := overlay.withSuffix ".u-boot.rom"

/-- An overlay's own copy of the disk image. -/
def imageSidecar (overlay : Path) : Path := overlay.withSuffix ".img"

end LaunchPlan
