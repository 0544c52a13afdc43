import LaunchPlan.Proofs.Launch.Command
import LaunchPlan.Proofs.Overlay.FirstUse

/-!
Where the tokens of a command stand. Main statements: `arguments_isSuffix_iff`, what a kernel is
told stands at the end or not at all, and `command_follows_options`, what the options of a run ask
for is found in the commands of its launch, each at its place.
-/

namespace LaunchPlan

theorem pair_isSuffix_iff {front : List String} {a b c d : String} :
    [a, b] <:+ front ++ [c, d] ↔ a = c ∧ b = d := by
  constructor
  · rintro ⟨before, h⟩
    have hends := List.append_inj_right' h rfl
    simpa using hends
  · rintro ⟨rfl, rfl⟩
    exact List.suffix_append _ _

namespace Launch

variable (l : Launch)

/-- What a command lists between its devices and its end. -/
def middle : List String :=
  l.pcapTokens ++ l.secondaryTokens ++ l.screenTokens ++ l.cpuTokens

theorem command_eq :
    l.command
      = emulator :: l.bootTokens ++ (l.driveTokens ++ (l.deviceTokens
          ++ (l.middle ++ (l.overlayTokens ++ l.appendTokens)))) := by
  simp [command, middle]

theorem take_command : l.command.take 3 = emulator :: l.bootTokens := by
  rw [command_eq]
  exact List.take_left' (by simp [length_bootTokens])

theorem drop_command :
    l.command.drop 3
      = l.driveTokens ++ (l.deviceTokens ++ (l.middle ++ (l.overlayTokens ++ l.appendTokens))) := by
  rw [command_eq]
  exact List.drop_left' (by simp [length_bootTokens])

/-- The place of the devices, behind the drive if there is one. -/
theorem devicesPlace_eq :
    (if l.overlay = none then 5 else 3) = 3 + l.driveTokens.length := by
  rw [length_driveTokens]
  split <;> rfl

theorem devices_command :
    (l.command.drop (if l.overlay = none then 5 else 3)).take 12 = l.deviceTokens := by
  rw [devicesPlace_eq, ← List.drop_drop, drop_command, List.drop_left]
  exact List.take_left' l.length_deviceTokens

theorem rest_command :
    l.command.drop ((if l.overlay = none then 5 else 3) + 12)
      = l.middle ++ (l.overlayTokens ++ l.appendTokens) := by
  rw [devicesPlace_eq, ← List.drop_drop, ← List.drop_drop, drop_command, List.drop_left]
  exact List.drop_left' l.length_deviceTokens

/-- The last two tokens before the arguments of a kernel are not such arguments: the processor is
named there, and after it the overlay at most. -/
theorem middle_ends :
    ∃ front a b, l.middle ++ l.overlayTokens = front ++ [a, b] ∧ a ≠ "-append" := by
  let front := l.pcapTokens ++ l.secondaryTokens ++ l.screenTokens
  unfold middle overlayTokens cpuTokens
  cases l.overlay with
  | none =>
    cases l.kvm with
    | true => exact ⟨front ++ ["-enable-kvm"], "-cpu", "host", by simp [front], by decide⟩
    | false => exact ⟨front, "-cpu", "Haswell", by simp [front], by decide⟩
  | some overlay =>
    cases l.kvm with
    | true =>
      exact ⟨front ++ ["-enable-kvm", "-cpu"], "host", overlay.display, by simp [front], by decide⟩
    | false => exact ⟨front ++ ["-cpu"], "Haswell", overlay.display, by simp [front], by decide⟩

theorem arguments_isSuffix_iff :
    ["-append", kernelArguments] <:+ l.command ↔ ∃ kernel, l.bootImage = .kernel kernel := by
  have hcommand : l.command = (emulator :: l.bootTokens ++ l.driveTokens ++ l.deviceTokens)
      ++ (l.middle ++ l.overlayTokens ++ l.appendTokens) := by
    rw [command_eq]
    simp
  rw [hcommand, appendTokens]
  cases l.bootImage with
  | bios path =>
    obtain ⟨front, a, b, hmiddle, hother⟩ := l.middle_ends
    rw [hmiddle, List.append_nil, ← List.append_assoc, pair_isSuffix_iff]
    simp [Ne.symm hother]
  | kernel path =>
    rw [← List.append_assoc, pair_isSuffix_iff]
    simp

end Launch

namespace Options

variable (o : Options)

/-- The memory that is asked for. An empty text asks for none in particular. -/
def memory : String :=
  match o.mem with
  | none => "1G"
  | some mem => if mem = "" then "1G" else mem

/-- The user network: the forward to the guest's SSH port, that to its debugger if it is asked for,
and the one that is given; an empty text gives none. -/
def network (sshPort : Port) : String :=
  "user,hostfwd=tcp:0.0.0.0:" ++ toString sshPort.toNat ++ "-:22,restrict=off"
    ++ (if o.gdb then ",hostfwd=tcp:0.0.0.0:2159-:2159" else "")
    ++ (match o.hostForward with
        | none => ""
        | some forward => if forward = "" then "" else ",hostfwd=" ++ forward)

/-- The devices of every launch: the serial line, the memory, a source of random numbers, and the user
network with the card on it. -/
def devices (serialPort sshPort : Port) (mac : MacAddress) : List String :=
  ["-serial", "tcp:127.0.0.1:" ++ toString serialPort.toNat ++ ",server,nowait",
    "-m", o.memory,
    "-object", "rng-random,id=rng0,filename=/dev/urandom",
    "-device", "virtio-rng-pci,rng=rng0",
    "-net", o.network sshPort,
    "-net", "nic,macaddr=" ++ mac.render]

/-- What is asked for behind the devices: a file for the packets, the second network, a screen or
none, and the processor. -/
def extras (secondaryMac : Option MacAddress) (kvm : Bool) : List String :=
  (match o.pcap with
    | some file => ["-net", "dump,file=" ++ file.display]
    | none => [])
  ++ (match secondaryMac with
    | some mac =>
      ["-netdev", "socket,id=vlan1,mcast=230.0.0.1:1234,localaddr=127.0.0.1",
        "-device", "e1000,netdev=vlan1,mac=" ++ mac.render]
    | none => [])
  ++ (if o.noGui then ["-nographic", "-monitor", "null"]
      else ["-usb", "-device", "usb-tablet", "-show-cursor", "-vga", "std"])
  ++ (if kvm then ["-enable-kvm", "-cpu", "host"] else ["-cpu", "Haswell"])

theorem unlessEmpty_some (text : String) :
    Preparation.unlessEmpty (some text) = if text = "" then none else some text := by
  unfold Preparation.unlessEmpty
  by_cases hempty : text = ""
  · rw [hempty]
    rfl
  · simp [Option.filter, hempty]

theorem memory_eq :
    (Preparation.unlessEmpty o.mem).getD Preparation.defaultMemory = o.memory := by
  unfold memory
  cases o.mem with
  | none => rfl
  | some mem =>
    rw [unlessEmpty_some]
    by_cases hempty : mem = ""
    · simp only [hempty, if_true]
      rfl
    · simp only [hempty, if_false]
      rfl

theorem isSome_secondary (dice : Dice) :
    (o.addresses dice).1.2.isSome = o.secondaryNetwork := by
  unfold addresses
  cases o.secondaryNetwork with
  | true => rfl
  | false => rfl

theorem userNetwork_launch (machine : String) (bootImage : BootImage) (image : Path)
    (addresses : MacAddress × Option MacAddress) (serialPort sshPort : Port) (kvm : Bool) :
    (o.launch machine bootImage image addresses serialPort sshPort kvm).userNetwork
      = o.network sshPort := by
  have hdebugger : ",hostfwd=tcp:0.0.0.0:" ++ toString Port.debugger.toNat ++ "-:"
      ++ toString Port.debugger.toNat = ",hostfwd=tcp:0.0.0.0:2159-:2159" := by decide +kernel
  unfold Launch.userNetwork network
  simp only [launch, hdebugger]
  cases o.hostForward with
  | none => rfl
  | some forward =>
    rw [unlessEmpty_some]
    by_cases hempty : forward = ""
    · simp only [hempty, if_true]
    · simp only [hempty, if_false]

end Options

/-- What options ask for stands in the commands of a launch: how it boots behind the emulator, its
disk next or as an overlay at the end, then its devices and what else is asked for, and what a kernel
is told behind all of that. With an overlay these are all the tokens, so no section is for a drive. -/
structure Launch.Follows (l : Launch) (o : Options) : Prop where
  boot : l.command.take 3
    = [emulator, if o.efi || o.uboot then "-bios" else "-kernel", l.bootImage.path.display]
  firmware : o.efi = true → l.bootImage.path.display = "OVMF.fd"
  arguments : ["-append", kernelArguments] <:+ l.command ↔ o.efi = false ∧ o.uboot = false
  drive : o.overlay = none →
    (l.command.drop 3).take 2
      = ["-drive", "file=" ++ l.image.display ++ ",if=" ++ (if o.uboot then "ide" else "virtio")
          ++ ",format=raw,snapshot=on"] ∧
    l.overlayCommand = none
  overlay : ∀ overlay, o.overlay = some overlay →
    o.uboot = true ∧ (∃ path, l.bootImage = .bios path) ∧
    l.command = [emulator, "-bios", l.bootImage.path.display]
      ++ o.devices l.serialPort l.sshPort l.mac ++ o.extras l.secondaryMac l.kvm
      ++ [overlay.display] ∧
    l.overlayCommand = some ["qemu-img", "create", "-o",
      "backing_file=" ++ (overlay.withSuffix ".img").display, "-f", "qcow2", overlay.display]
  devices : (l.command.drop (if o.overlay = none then 5 else 3)).take 12
    = o.devices l.serialPort l.sshPort l.mac
  rest : l.command.drop ((if o.overlay = none then 5 else 3) + 12)
    = o.extras l.secondaryMac l.kvm ++ (o.overlay.toList.map Path.display
      ++ if o.efi || o.uboot then [] else ["-append", kernelArguments])
  secondary : l.secondaryMac.isSome = o.secondaryNetwork

namespace Preparation

variable {probe : Probe} {o : Options} {d : Deployment} {s t : Progress}

/-- A kernel is booted itself if neither of the other two ways is asked for. -/
theorem chooseBootImage_kind {bootImage : BootImage} (h : chooseBootImage o d s = .ok bootImage t) :
    if o.efi || o.uboot then ∃ path, bootImage = .bios path
    else ∃ path, bootImage = .kernel path := by
  generalize hrun : (.ok bootImage t : Ending BootImage) = r at h
  cases chooseBootImage_run h with
  | firmware hefi =>
    cases hrun
    simp [hefi]
  | kernel hefi hoff =>
    obtain ⟨kernel, -, rfl⟩ := Ending.map_ok hrun.symm
    simp [hefi, hoff]
  | plainRom hefi huboot =>
    obtain ⟨rom, -, rfl⟩ := Ending.map_ok hrun.symm
    simp [huboot]
  | ownRom hefi huboot =>
    obtain ⟨rom, -, rfl⟩ := Ending.map_ok hrun.symm
    simp [huboot]

/-- What a launch takes over from its options, and what it boots and runs from. -/
structure Realizes (l : Launch) (o : Options) : Prop where
  fits : o.uboot = true ∨ o.overlay = none
  kind : if o.efi || o.uboot then ∃ path, l.bootImage = .bios path
    else ∃ path, l.bootImage = .kernel path
  firmware : o.efi = true → l.bootImage = .bios efiFirmware
  own : ∀ overlay, o.overlay = some overlay → l.image = imageSidecar overlay
  overlay : l.overlay = o.overlay
  driveInterface : l.driveInterface = .ofUboot o.uboot
  mem : l.mem = o.memory
  network : l.userNetwork = o.network l.sshPort
  pcap : l.pcap = o.pcap
  gui : l.gui = !o.noGui
  secondary : l.secondaryMac.isSome = o.secondaryNetwork

theorem prepare_realizes {launch : Launch} (h : prepare probe o s = .ok launch t) :
    Realizes launch o := by
  obtain ⟨hfits, machine, bootImage, image, u, v, -, hboot, hdisk, hlast⟩ := prepare_ok h
  obtain ⟨serialPort, sshPort, -, rfl, -⟩ := complete_ok hlast
  exact {
    fits := hfits
    kind := chooseBootImage_kind hboot
    firmware := fun efi => (chooseBootImage_efi_ok efi hboot).1
    own := fun _ given => chooseImage_own given hdisk
    overlay := rfl
    driveInterface := rfl
    mem := o.memory_eq
    network := o.userNetwork_launch machine bootImage image _ serialPort sshPort _
    pcap := rfl
    gui := rfl
    secondary := o.isSome_secondary v.host.dice }

namespace Realizes

variable {l : Launch}

/-- What is booted stands behind the emulator, and what a kernel is told at the end. -/
theorem boot_eq (h : Realizes l o) :
    l.bootTokens = [if o.efi || o.uboot then "-bios" else "-kernel", l.bootImage.path.display] ∧
      l.appendTokens = if o.efi || o.uboot then [] else ["-append", kernelArguments] := by
  have hkind := h.kind
  unfold Launch.bootTokens Launch.appendTokens
  split at hkind
  · next hon =>
    obtain ⟨path, hpath⟩ := hkind
    rw [hpath, if_pos hon, if_pos hon]
    exact ⟨rfl, rfl⟩
  · next hoff =>
    obtain ⟨path, hpath⟩ := hkind
    rw [hpath, if_neg hoff, if_neg hoff]
    exact ⟨rfl, rfl⟩

theorem take_command (h : Realizes l o) :
    l.command.take 3
      = [emulator, if o.efi || o.uboot then "-bios" else "-kernel", l.bootImage.path.display] := by
  rw [Launch.take_command, h.boot_eq.1]

theorem arguments_isSuffix_iff (h : Realizes l o) :
    ["-append", kernelArguments] <:+ l.command ↔ o.efi = false ∧ o.uboot = false := by
  have hkind := h.kind
  rw [Launch.arguments_isSuffix_iff]
  split at hkind
  · next hon =>
    obtain ⟨path, hpath⟩ := hkind
    rw [Bool.or_eq_true] at hon
    rcases hon with hon | hon
    · simp [hpath, hon]
    · simp [hpath, hon]
  · next hoff =>
    obtain ⟨path, hpath⟩ := hkind
    simpa [hpath] using hoff

theorem drive_command (h : Realizes l o) (plain : o.overlay = none) :
    (l.command.drop 3).take 2
      = ["-drive", "file=" ++ l.image.display ++ ",if=" ++ (if o.uboot then "ide" else "virtio")
          ++ ",format=raw,snapshot=on"] := by
  have hoverlay : l.overlay = none := h.overlay.trans plain
  have hinterface : l.driveInterface.name = if o.uboot then "ide" else "virtio" := by
    rw [h.driveInterface, DriveInterface.ofUboot]
    split
    · rfl
    · rfl
  rw [Launch.drop_command, ← hinterface]
  simp only [Launch.driveTokens, hoverlay]
  rfl

theorem devices_eq (h : Realizes l o) :
    l.deviceTokens = o.devices l.serialPort l.sshPort l.mac := by
  rw [Launch.deviceTokens, h.mem, h.network, Options.devices]

theorem extras_eq (h : Realizes l o) : l.middle = o.extras l.secondaryMac l.kvm := by
  unfold Launch.middle Options.extras Launch.pcapTokens Launch.secondaryTokens Launch.screenTokens
    Launch.cpuTokens
  rw [h.pcap, h.gui]
  cases o.noGui with
  | true => rfl
  | false => rfl

theorem overlay_eq (h : Realizes l o) : l.overlayTokens = o.overlay.toList.map Path.display := by
  unfold Launch.overlayTokens
  rw [h.overlay]
  cases o.overlay with
  | none => rfl
  | some overlay => rfl

theorem rest_command (h : Realizes l o) :
    l.command.drop ((if o.overlay = none then 5 else 3) + 12)
      = o.extras l.secondaryMac l.kvm ++ (o.overlay.toList.map Path.display
        ++ if o.efi || o.uboot then [] else ["-append", kernelArguments]) := by
  rw [← h.overlay, Launch.rest_command, h.extras_eq, h.boot_eq.2, h.overlay_eq, h.overlay]

theorem overlay_commands (h : Realizes l o) {overlay : Path} (given : o.overlay = some overlay) :
    o.uboot = true ∧ (∃ path, l.bootImage = .bios path) ∧
    l.command = [emulator, "-bios", l.bootImage.path.display]
      ++ o.devices l.serialPort l.sshPort l.mac ++ o.extras l.secondaryMac l.kvm
      ++ [overlay.display] ∧
    l.overlayCommand = some ["qemu-img", "create", "-o",
      "backing_file=" ++ (overlay.withSuffix ".img").display, "-f", "qcow2", overlay.display] := by
  have hoverlay : l.overlay = some overlay := h.overlay.trans given
  have huboot : o.uboot = true := by simpa [given] using h.fits
  obtain ⟨path, hpath⟩ : ∃ path, l.bootImage = .bios path := by simpa [huboot] using h.kind
  refine ⟨huboot, ⟨path, hpath⟩, ?_, ?_⟩
  · have hdrive : l.driveTokens = [] := by simp only [Launch.driveTokens, hoverlay]
    rw [Launch.command_eq, h.boot_eq.1, h.boot_eq.2, hdrive, h.devices_eq, h.extras_eq,
      h.overlay_eq, given]
    simp [huboot]
  · simp only [Launch.overlayCommand, hoverlay, h.own overlay given, Option.map_some]
    rfl

end Realizes

/-- What the options ask for is found in the commands of the launch that they come to. -/
theorem command_follows_options (probe : Probe) (o : Options) (h : Host) {launch : Launch}
    (decided : (h.run (prepare probe o)).result = .ok launch) : launch.Follows o := by
  obtain ⟨t, hend, -⟩ := Host.run_ok decided
  have hrealizes := prepare_realizes hend
  exact {
    boot := hrealizes.take_command
    firmware := fun efi => by
      rw [hrealizes.firmware efi]
      exact Path.display_ofString "OVMF.fd"
    arguments := hrealizes.arguments_isSuffix_iff
    drive := fun plain =>
      ⟨hrealizes.drive_command plain, Launch.overlayCommand_none.2 (hrealizes.overlay.trans plain)⟩
    overlay := fun _ given => hrealizes.overlay_commands given
    devices := by rw [← hrealizes.overlay, Launch.devices_command, hrealizes.devices_eq]
    rest := hrealizes.rest_command
    secondary := hrealizes.secondary }

/-- The U-Boot image and the overlay of the sample options, in the command that starts them. -/
theorem command_follows_options_sample :
    ∃ launch, (Sample.complete.run (prepare (.known false) Sample.options)).result = .ok launch ∧
      launch.command.take 3 = [emulator, "-bios", "/v.u-boot.rom"] ∧
      launch.command.getLast? = some "/v" := by
  have hdecided : (Sample.complete.run (prepare (.known false) Sample.options)).result
      = .ok (Sample.options.launch "m" (.bios (.ofString "/v.u-boot.rom")) (.ofString "/v.img")
        (⟨0x52, 0x54, 0, 0, 0, 1⟩, none) 8990 2222 false) := by
    decide +kernel
  have hfollows := command_follows_options (.known false) Sample.options Sample.complete hdecided
  obtain ⟨-, -, hcommand, -⟩ := hfollows.overlay (.ofString "/v") rfl
  have hlast := congrArg List.getLast? hcommand
  have hboot := hfollows.boot
  rw [List.getLast?_concat, Path.display_ofString] at hlast
  refine ⟨_, hdecided, ?_, hlast⟩
  rw [hboot]
  simp only [Options.launch, BootImage.path, Path.display_ofString]
  rfl

end Preparation

end LaunchPlan
