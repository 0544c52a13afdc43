import LaunchPlan.Launch

/-!
Reading a launch off its command. Each section of a command has a fixed length and, if it can be
absent, a flag of its own in front, so what a section holds is never taken for the start of another
one. Main statements: `command_sections`, equal commands have equal sections, and
`commands_determine`, the two commands of a launch tell all that they were made from.
-/

namespace LaunchPlan

theorem isDigit_of_mem_toDigits {n : Nat} {c : Char} (h : c ∈ Nat.toDigits 10 n) :
    c.isDigit = true :=
  Nat.isDigit_of_mem_toDigits (by decide) (by decide) h

/-- A number is told from the text it starts, if the text goes on with something that is no digit. -/
theorem toDigits_append_inj {m n : Nat} {mark : Char} {rest rest' : List Char}
    (other : mark.isDigit = false)
    (h : Nat.toDigits 10 m ++ mark :: rest = Nat.toDigits 10 n ++ mark :: rest') :
    m = n ∧ rest = rest' := by
  have hdigits (k : Nat) (after : List Char) :
      (Nat.toDigits 10 k ++ mark :: after).takeWhile Char.isDigit = Nat.toDigits 10 k := by
    rw [List.takeWhile_append_of_pos fun c => isDigit_of_mem_toDigits,
      List.takeWhile_cons_of_neg (by simp [other]), List.append_nil]
  have hnumber : Nat.toDigits 10 m = Nat.toDigits 10 n := by
    rw [← hdigits m rest, h, hdigits]
  have hvalue := congrArg (fun digits => Nat.ofDigitChars 10 digits 0) hnumber
  rw [hnumber, List.append_cancel_left_eq, List.cons.injEq] at h
  exact ⟨by simpa using hvalue, h.2⟩

/-- A section of a command that may be absent: it is of a fixed length, behind a flag of its own. -/
def IsSection (flag : String) (length : Nat) (tokens : List String) : Prop :=
  tokens = [] ∨ tokens.head? = some flag ∧ tokens.length = length

/-- Where no other section starts with the flag, a section can be told from what follows it. -/
theorem IsSection.append_inj {flag : String} {length : Nat} {a b rest rest' : List String}
    (ha : IsSection flag length a) (hb : IsSection flag length b) (hrest : rest.head? ≠ some flag)
    (hrest' : rest'.head? ≠ some flag) (h : a ++ rest = b ++ rest') : a = b ∧ rest = rest' := by
  have hheads := congrArg List.head? h
  rw [List.head?_append, List.head?_append] at hheads
  have hlengths : a.length = b.length := by
    rcases ha with rfl | ⟨hahead, halength⟩
    · rcases hb with rfl | ⟨hbhead, -⟩
      · rfl
      · rw [hbhead] at hheads
        exact absurd hheads hrest
    · rcases hb with rfl | ⟨-, hblength⟩
      · rw [hahead] at hheads
        exact absurd hheads.symm hrest'
      · rw [halength, hblength]
  exact List.append_inj h hlengths

namespace Launch

variable (l : Launch) {l' : Launch}

/-- All its paths are text. -/
def IsText : Prop :=
  l.bootImage.path.text?.isSome = true ∧ l.image.text?.isSome = true ∧
    (∀ overlay ∈ l.overlay, overlay.text?.isSome = true) ∧
    ∀ file ∈ l.pcap, file.text?.isSome = true

/-- What the user network lists behind the forward to the guest's SSH port. -/
def forwards : String :=
  (if l.gdb then
      ",hostfwd=tcp:0.0.0.0:" ++ toString Port.debugger.toNat ++ "-:"
        ++ toString Port.debugger.toNat
    else "")
    ++ (match l.hostForward with
        | some forward => ",hostfwd=" ++ forward
        | none => "")

theorem userNetwork_eq :
    l.userNetwork = "user,hostfwd=tcp:0.0.0.0:"
      ++ (toString l.sshPort.toNat ++ ("-:22,restrict=off" ++ l.forwards)) := by
  unfold userNetwork forwards
  cases l.hostForward with
  | none => simp only [String.append_assoc]
  | some forward => simp only [String.append_assoc]

/-! What the sections are made of. -/

theorem length_bootTokens : l.bootTokens.length = 2 := by
  unfold bootTokens
  split <;> rfl

theorem length_deviceTokens : l.deviceTokens.length = 12 := rfl

theorem length_driveTokens : l.driveTokens.length = if l.overlay = none then 2 else 0 := by
  unfold driveTokens
  cases l.overlay <;> rfl

theorem isSection_pcapTokens : IsSection "-net" 2 l.pcapTokens := by
  unfold pcapTokens
  cases l.pcap with
  | none => exact .inl rfl
  | some path => exact .inr ⟨rfl, rfl⟩

theorem isSection_secondaryTokens : IsSection "-netdev" 4 l.secondaryTokens := by
  unfold secondaryTokens
  cases l.secondaryMac with
  | none => exact .inl rfl
  | some mac => exact .inr ⟨rfl, rfl⟩

theorem head?_screenTokens :
    l.screenTokens.head? = some (if l.gui then "-usb" else "-nographic") := by
  unfold screenTokens
  cases l.gui <;> rfl

theorem head?_cpuTokens :
    l.cpuTokens.head? = some (if l.kvm then "-enable-kvm" else "-cpu") := by
  unfold cpuTokens
  cases l.kvm <;> rfl

theorem head?_screenTokens_append (rest : List String) :
    (l.screenTokens ++ rest).head? = some (if l.gui then "-usb" else "-nographic") := by
  rw [List.head?_append, head?_screenTokens, Option.some_or]

/-- The screen's section takes none of the flags that open the sections before it. -/
theorem screen_ne {flag : String} (usb : flag ≠ "-usb") (nographic : flag ≠ "-nographic")
    (rest : List String) : (l.screenTokens ++ rest).head? ≠ some flag := by
  rw [head?_screenTokens_append]
  cases l.gui with
  | true => simpa using usb.symm
  | false => simpa using nographic.symm

theorem secondary_ne (rest : List String) :
    (l.secondaryTokens ++ (l.screenTokens ++ rest)).head? ≠ some "-net" := by
  rw [List.head?_append]
  rcases l.isSection_secondaryTokens with hnone | ⟨hhead, -⟩
  · rw [hnone]
    exact l.screen_ne (by decide) (by decide) rest
  · rw [hhead, Option.some_or]
    decide

variable {l}

theorem gui_eq_of_screen {rest rest' : List String}
    (h : l.screenTokens ++ rest = l'.screenTokens ++ rest') : l.gui = l'.gui := by
  have hheads := congrArg List.head? h
  rw [head?_screenTokens_append, head?_screenTokens_append] at hheads
  cases hl : l.gui <;> cases hl' : l'.gui <;> simp [hl, hl'] at hheads ⊢

theorem kvm_eq_of_cpu {rest rest' : List String}
    (h : l.cpuTokens ++ rest = l'.cpuTokens ++ rest') : l.kvm = l'.kvm := by
  have hheads := congrArg List.head? h
  rw [List.head?_append, List.head?_append, head?_cpuTokens, head?_cpuTokens] at hheads
  cases hl : l.kvm <;> cases hl' : l'.kvm <;> simp [hl, hl'] at hheads ⊢

/-- Launches with the same command have the same sections, if both have an overlay or neither. -/
theorem command_sections (overlay : l.overlay = none ↔ l'.overlay = none)
    (h : l.command = l'.command) :
    l.bootTokens = l'.bootTokens ∧ l.driveTokens = l'.driveTokens ∧
      l.deviceTokens = l'.deviceTokens ∧ l.pcapTokens = l'.pcapTokens ∧
      l.secondaryTokens = l'.secondaryTokens ∧ l.gui = l'.gui ∧ l.kvm = l'.kvm := by
  simp only [command, List.append_assoc, List.cons.injEq, true_and] at h
  obtain ⟨hboot, h⟩ := List.append_inj h (by rw [length_bootTokens, length_bootTokens])
  obtain ⟨hdrive, h⟩ := List.append_inj h (by simp only [length_driveTokens, overlay])
  obtain ⟨hdevice, h⟩ := List.append_inj h (by rw [length_deviceTokens, length_deviceTokens])
  obtain ⟨hpcap, h⟩ := l.isSection_pcapTokens.append_inj l'.isSection_pcapTokens
    (l.secondary_ne _) (l'.secondary_ne _) h
  obtain ⟨hsecondary, h⟩ := l.isSection_secondaryTokens.append_inj l'.isSection_secondaryTokens
    (l.screen_ne (by decide) (by decide) _) (l'.screen_ne (by decide) (by decide) _) h
  have hgui : l.gui = l'.gui := gui_eq_of_screen h
  have hscreen : l.screenTokens = l'.screenTokens := by rw [screenTokens, hgui, screenTokens]
  rw [hscreen, List.append_cancel_left_eq] at h
  exact ⟨hboot, hdrive, hdevice, hpcap, hsecondary, hgui, kvm_eq_of_cpu h⟩

/-! What is told by each section. -/

theorem bootImage_eq (text : l.bootImage.path.text?.isSome = true)
    (text' : l'.bootImage.path.text?.isSome = true) (h : l.bootTokens = l'.bootTokens) :
    l.bootImage = l'.bootImage := by
  unfold bootTokens at h
  cases hl : l.bootImage with
  | bios p =>
    cases hl' : l'.bootImage with
    | bios q =>
      rw [hl] at text h
      rw [hl'] at text' h
      have hshown : p.display = q.display := by simpa using h
      exact congrArg BootImage.bios (Path.eq_of_display text text' hshown)
    | kernel q => simp [hl, hl'] at h
  | kernel p =>
    cases hl' : l'.bootImage with
    | bios q => simp [hl, hl'] at h
    | kernel q =>
      rw [hl] at text h
      rw [hl'] at text' h
      have hshown : p.display = q.display := by simpa using h
      exact congrArg BootImage.kernel (Path.eq_of_display text text' hshown)

/-- The names of the interfaces have different ends. -/
theorem interface_eq {s t : String} {i j : DriveInterface} (h : s ++ i.name = t ++ j.name) :
    i = j := by
  have hlast (u : String) (k : DriveInterface) :
      (u ++ k.name).toList.getLast? = some (if k = .ide then 'e' else 'o') := by
    rw [String.toList_append, List.getLast?_append]
    cases k <;> rfl
  have hlasts := congrArg (fun u => u.toList.getLast?) h
  simp only [hlast] at hlasts
  cases i <;> cases j <;> simp_all

theorem driveTokens_inj (plain : l.overlay = none) (plain' : l'.overlay = none)
    (text : l.image.text?.isSome = true) (text' : l'.image.text?.isSome = true)
    (h : l.driveTokens = l'.driveTokens) :
    l.image = l'.image ∧ l.driveInterface = l'.driveInterface := by
  unfold driveTokens at h
  simp only [plain, plain', List.cons.injEq, true_and, and_true] at h
  rw [String.append_left_inj] at h
  have hinterface : l.driveInterface = l'.driveInterface := interface_eq h
  rw [hinterface, String.append_left_inj, String.append_left_inj, String.append_right_inj] at h
  exact ⟨Path.eq_of_display text text' h, hinterface⟩

theorem userNetwork_inj (h : l.userNetwork = l'.userNetwork) :
    l.sshPort = l'.sshPort ∧ l.forwards = l'.forwards := by
  have hmark : "-:22,restrict=off".toList = '-' :: ":22,restrict=off".toList := by decide
  rw [userNetwork_eq, userNetwork_eq, String.append_right_inj] at h
  have hchars := congrArg String.toList h
  simp only [String.toList_append, Nat.toString_eq_ofList_toDigits, String.toList_ofList, hmark,
    List.cons_append] at hchars
  obtain ⟨hport, hrest⟩ := toDigits_append_inj (by decide) hchars
  rw [List.append_cancel_left_eq, String.toList_inj] at hrest
  exact ⟨UInt16.toNat_inj.1 hport, hrest⟩

theorem serialPort_eq (h : "tcp:127.0.0.1:" ++ toString l.serialPort.toNat ++ ",server,nowait"
    = "tcp:127.0.0.1:" ++ toString l'.serialPort.toNat ++ ",server,nowait") :
    l.serialPort = l'.serialPort := by
  have hmark : ",server,nowait".toList = ',' :: "server,nowait".toList := by decide
  rw [String.append_assoc, String.append_assoc, String.append_right_inj] at h
  have hchars := congrArg String.toList h
  simp only [String.toList_append, Nat.toString_eq_ofList_toDigits, String.toList_ofList,
    hmark] at hchars
  exact UInt16.toNat_inj.1 (toDigits_append_inj (by decide) hchars).1

theorem deviceTokens_inj (h : l.deviceTokens = l'.deviceTokens) :
    l.serialPort = l'.serialPort ∧ l.mem = l'.mem ∧ l.userNetwork = l'.userNetwork ∧
      l.mac = l'.mac := by
  simp only [deviceTokens, List.cons.injEq, true_and, and_true] at h
  obtain ⟨hserial, hmem, hnetwork, hmac⟩ := h
  rw [String.append_right_inj] at hmac
  exact ⟨serialPort_eq hserial, hmem, hnetwork, MacAddress.render_injective hmac⟩

theorem pcap_eq (text : ∀ file ∈ l.pcap, file.text?.isSome = true)
    (text' : ∀ file ∈ l'.pcap, file.text?.isSome = true) (h : l.pcapTokens = l'.pcapTokens) :
    l.pcap = l'.pcap := by
  unfold pcapTokens at h
  cases hl : l.pcap with
  | none =>
    cases hl' : l'.pcap with
    | none => rfl
    | some q => simp [hl, hl'] at h
  | some p =>
    cases hl' : l'.pcap with
    | none => simp [hl, hl'] at h
    | some q =>
      simp only [hl, hl', List.cons.injEq, true_and, and_true, String.append_right_inj] at h
      rw [Path.eq_of_display (text p hl) (text' q hl') h]

theorem secondaryMac_eq (h : l.secondaryTokens = l'.secondaryTokens) :
    l.secondaryMac = l'.secondaryMac := by
  unfold secondaryTokens at h
  cases hl : l.secondaryMac with
  | none =>
    cases hl' : l'.secondaryMac with
    | none => rfl
    | some n => simp [hl, hl'] at h
  | some m =>
    cases hl' : l'.secondaryMac with
    | none => simp [hl, hl'] at h
    | some n =>
      simp only [hl, hl', List.cons.injEq, true_and, and_true, String.append_right_inj] at h
      rw [MacAddress.render_injective h]

/-- The commands show the same of both launches. They show neither the machine's name nor the boot
mode, nor, with an overlay, the drive's interface; and of what adds forwards only the forwards. -/
structure ShowsSame (l l' : Launch) : Prop where
  bootImage : l.bootImage = l'.bootImage
  overlay : l.overlay = l'.overlay
  image : l.image = l'.image
  driveInterface : l.overlay = none → l.driveInterface = l'.driveInterface
  serialPort : l.serialPort = l'.serialPort
  sshPort : l.sshPort = l'.sshPort
  mem : l.mem = l'.mem
  mac : l.mac = l'.mac
  pcap : l.pcap = l'.pcap
  secondaryMac : l.secondaryMac = l'.secondaryMac
  gui : l.gui = l'.gui
  kvm : l.kvm = l'.kvm
  forwards : l.forwards = l'.forwards

theorem overlayCommand_none : l.overlayCommand = none ↔ l.overlay = none := by
  simp [overlayCommand]

theorem overlayCommand_inj {overlay overlay' : Path} (given : l.overlay = some overlay)
    (given' : l'.overlay = some overlay') (text : l.IsText) (text' : l'.IsText)
    (h : l.overlayCommand = l'.overlayCommand) : overlay = overlay' ∧ l.image = l'.image := by
  simp only [overlayCommand, given, given', Option.map_some, Option.some.injEq, List.cons.injEq,
    true_and, and_true, String.append_right_inj] at h
  obtain ⟨-, himage, hoverlay, -⟩ := text
  obtain ⟨-, himage', hoverlay', -⟩ := text'
  exact ⟨Path.eq_of_display (hoverlay overlay given) (hoverlay' overlay' given') h.2,
    Path.eq_of_display himage himage' h.1⟩

/-- What the two commands tell of the disk: the first names the image, or the second does. -/
theorem disk_eq (text : l.IsText) (text' : l'.IsText) (hdrive : l.driveTokens = l'.driveTokens)
    (h : l.overlayCommand = l'.overlayCommand) :
    l.overlay = l'.overlay ∧ l.image = l'.image ∧
      (l.overlay = none → l.driveInterface = l'.driveInterface) := by
  cases given : l.overlay with
  | none =>
    have given' : l'.overlay = none := by
      rw [← overlayCommand_none, ← h, overlayCommand_none, given]
    obtain ⟨himage, hinterface⟩ := driveTokens_inj given given' text.2.1 text'.2.1 hdrive
    exact ⟨given'.symm, himage, fun _ => hinterface⟩
  | some overlay =>
    cases given' : l'.overlay with
    | none =>
      rw [overlayCommand_none.2 given', overlayCommand_none, given] at h
      exact absurd h (Option.some_ne_none overlay)
    | some overlay' =>
      obtain ⟨hoverlay, himage⟩ := overlayCommand_inj given given' text text' h
      refine ⟨congrArg some hoverlay, himage, ?_⟩
      intro hnone
      exact absurd hnone (Option.some_ne_none overlay)

/-- A launch whose paths are text is told by its commands, whatever stands in its texts. -/
theorem commands_determine (l l' : Launch) (text : l.IsText) (text' : l'.IsText)
    (command : l.command = l'.command) (overlay : l.overlayCommand = l'.overlayCommand) :
    l.ShowsSame l' := by
  have hnone : l.overlay = none ↔ l'.overlay = none := by
    rw [← overlayCommand_none, ← overlayCommand_none, overlay]
  obtain ⟨hboot, hdrive, hdevice, hpcap, hsecondary, hgui, hkvm⟩ := command_sections hnone command
  obtain ⟨hoverlay, himage, hinterface⟩ := disk_eq text text' hdrive overlay
  obtain ⟨hserial, hmem, hnetwork, hmac⟩ := deviceTokens_inj hdevice
  obtain ⟨hssh, hforwards⟩ := userNetwork_inj hnetwork
  exact {
    bootImage := bootImage_eq text.1 text'.1 hboot
    overlay := hoverlay
    image := himage
    driveInterface := hinterface
    serialPort := hserial
    sshPort := hssh
    mem := hmem
    mac := hmac
    pcap := pcap_eq text.2.2.2 text'.2.2.2 hpcap
    secondaryMac := secondaryMac_eq hsecondary
    gui := hgui
    kvm := hkvm
    forwards := hforwards }

/-- A launch whose texts look like flags and options; its second forward can come about in two
ways. -/
def sample (gdb : Bool) (hostForward : Option String) : Launch where
  machine := "m"
  bootMode := .directKernel
  bootImage := .kernel (.ofString "-append root=/dev/vda")
  image := .ofString "a b.img,if=ide"
  overlay := none
  driveInterface := .virtio
  mac := ⟨0x52, 0x54, 0, 0, 0, 1⟩
  secondaryMac := none
  serialPort := 8990
  sshPort := 2222
  mem := "-net"
  kvm := false
  gui := true
  gdb := gdb
  pcap := some (.ofString "-netdev,file=-usb")
  hostForward := hostForward

theorem commands_determine_sample :
    let debugged := sample true none
    let forwarded := sample false (some "tcp:0.0.0.0:2159-:2159")
    debugged ≠ forwarded ∧ debugged.IsText ∧ forwarded.IsText ∧
      debugged.command = forwarded.command ∧
      debugged.overlayCommand = forwarded.overlayCommand ∧ debugged.ShowsSame forwarded := by
  intro debugged forwarded
  have htext (gdb : Bool) (hostForward : Option String) : (sample gdb hostForward).IsText := by
    simp [IsText, sample, BootImage.path, Path.text?_ofString]
  have hnetwork : debugged.userNetwork = forwarded.userNetwork := by decide +kernel
  have hcommand : debugged.command = forwarded.command := by
    simp only [command, deviceTokens, hnetwork]
    rfl
  exact ⟨by decide, htext true none, htext false _, hcommand, rfl,
    commands_determine debugged forwarded (htext true none) (htext false _) hcommand rfl⟩

end Launch

end LaunchPlan
