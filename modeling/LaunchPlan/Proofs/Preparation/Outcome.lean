import LaunchPlan.Proofs.Preparation.Stage
import Mathlib.Control.Monad.Basic

/-!
How a whole preparation ends, stage by stage. Main statements: `chooseBootImage_run` and
`chooseImage_run`, what each choice comes down to, and `prepare_outcome`, a preparation is refused,
does not know its machine, fails with one of its two files, or gets to its last stage.
-/

namespace LaunchPlan

namespace Ending

variable {α β : Type}

def map (f : α → β) : Ending α → Ending β
  | .ok a s => .ok (f a) s
  | .error e s => .error e s

theorem map_ok {f : α → β} {r : Ending α} {b : β} {t : Progress} (h : map f r = .ok b t) :
    ∃ a, r = .ok a t ∧ f a = b := by
  cases r with
  | ok a s =>
    cases h
    exact ⟨a, rfl, rfl⟩
  | error e s => cases h

theorem map_error {f : α → β} {r : Ending α} {e : Failure} {t : Progress}
    (h : map f r = .error e t) : r = .error e t := by
  cases r with
  | ok a s => cases h
  | error e s =>
    cases h
    rfl

def outcome : Ending α → Outcome α
  | .ok a s => ⟨.ok a, s.host, s.journal⟩
  | .error e s => ⟨.error e, s.host, s.journal⟩

@[simp] theorem progress_map (f : α → β) (r : Ending α) : (map f r).progress = r.progress := by
  cases r <;> rfl

@[simp] theorem outcome_host (r : Ending α) : (outcome r).host = r.progress.host := by
  cases r <;> rfl

@[simp] theorem outcome_journal (r : Ending α) : (outcome r).journal = r.progress.journal := by
  cases r <;> rfl

theorem exists_of_result {r : Ending α} {a : α} (h : (outcome r).result = .ok a) :
    ∃ t, r = .ok a t := by
  cases r with
  | ok b t =>
    cases h
    exact ⟨t, rfl⟩
  | error e t => cases h

theorem exists_of_failure {r : Ending α} {e : Failure} (h : (outcome r).result = .error e) :
    ∃ t, r = .error e t := by
  cases r with
  | ok b t => cases h
  | error e t =>
    cases h
    exact ⟨t, rfl⟩

end Ending

namespace Host

def begin (h : Host) : Progress := ⟨h, .empty⟩

theorem run_eq {α : Type} (h : Host) (step : Preparation α) :
    h.run step = Ending.outcome (step h.begin) := by
  unfold Host.run Host.begin
  cases step ⟨h, .empty⟩ <;> rfl

theorem run_ok {α : Type} {h : Host} {step : Preparation α} {a : α}
    (succeeds : (h.run step).result = .ok a) :
    ∃ t, step h.begin = .ok a t ∧ h.run step = ⟨.ok a, t.host, t.journal⟩ := by
  rw [run_eq] at succeeds ⊢
  obtain ⟨t, hend⟩ := Ending.exists_of_result succeeds
  exact ⟨t, hend, by rw [hend]; rfl⟩

end Host

namespace Preparation

variable {probe : Probe} {o : Options} {d : Deployment} (s : Progress)

theorem chooseBootImage_efi (efi : o.efi = true) :
    chooseBootImage o d s = .ok (.bios efiFirmware) s := by
  simp [chooseBootImage, BootMode.ofFlags, efi]

theorem chooseBootImage_efi_ok {s t : Progress} {bootImage : BootImage} (efi : o.efi = true)
    (h : chooseBootImage o d s = .ok bootImage t) : bootImage = .bios efiFirmware ∧ t = s := by
  rw [chooseBootImage_efi s efi, EStateM.Result.ok.injEq] at h
  exact ⟨h.1.symm, h.2.symm⟩

theorem chooseBootImage_uboot (efi : o.efi = false) (uboot : o.uboot = true) :
    chooseBootImage o d s = Ending.map .bios (chooseBootloader o d s) := by
  simp only [chooseBootImage, BootMode.ofFlags, efi, uboot, Bool.false_eq_true, if_false, if_true,
    bind_apply, pure_apply]
  cases chooseBootloader o d s <;> rfl

theorem chooseBootImage_kernel (efi : o.efi = false) (uboot : o.uboot = false) :
    chooseBootImage o d s = Ending.map .kernel (chooseKernel o d s) := by
  simp only [chooseBootImage, BootMode.ofFlags, efi, uboot, Bool.false_eq_true, if_false,
    bind_apply, pure_apply]
  cases chooseKernel o d s <;> rfl

/-- What the choice of a boot image comes down to: firmware, or the stage for one artifact. -/
inductive BootImageRun (o : Options) (d : Deployment) (s : Progress) : Ending BootImage → Prop
  | firmware (efi : o.efi = true) : BootImageRun o d s (.ok (.bios efiFirmware) s)
  | kernel (efi : o.efi = false) (off : o.uboot = false) :
      BootImageRun o d s (Ending.map .kernel
        (plainStage .kernelImage (s.host.files.settle s.host.cwd d.kernel) o.dryRun s))
  | plainRom (efi : o.efi = false) (uboot : o.uboot = true) (plain : o.overlay = none) :
      BootImageRun o d s
        (Ending.map .bios (plainStage .ubootImage (romSource s.host o d) o.dryRun s))
  | ownRom {overlay : Path} (efi : o.efi = false) (uboot : o.uboot = true)
      (given : o.overlay = some overlay) :
      BootImageRun o d s (Ending.map .bios
        (ownStage .ubootImage (romSource s.host o d) (romSidecar overlay) overlay o.dryRun s))

theorem chooseBootImage_run {s : Progress} {r : Ending BootImage}
    (h : chooseBootImage o d s = r) : BootImageRun o d s r := by
  subst h
  cases hefi : o.efi with
  | true =>
    rw [chooseBootImage_efi s hefi]
    exact .firmware hefi
  | false =>
    cases huboot : o.uboot with
    | false =>
      rw [chooseBootImage_kernel s hefi huboot, chooseKernel_apply]
      exact .kernel hefi huboot
    | true =>
      rw [chooseBootImage_uboot s hefi huboot]
      cases hgiven : o.overlay with
      | none =>
        rw [chooseBootloader_plain s hgiven]
        exact .plainRom hefi huboot hgiven
      | some overlay =>
        rw [chooseBootloader_overlay s hgiven]
        exact .ownRom hefi huboot hgiven

inductive ImageRun (o : Options) (d : Deployment) (s : Progress) : Ending Path → Prop
  | plain (plain : o.overlay = none) :
      ImageRun o d s (plainStage .osImage
        (imageSource s.host o d >>= s.host.files.settle s.host.cwd) o.dryRun s)
  | own {overlay : Path} (given : o.overlay = some overlay) :
      ImageRun o d s
        (ownStage .osImage (imageSource s.host o d) (imageSidecar overlay) overlay o.dryRun s)

theorem chooseImage_run {s : Progress} {r : Ending Path} (h : chooseImage o d s = r) :
    ImageRun o d s r := by
  subst h
  cases hgiven : o.overlay with
  | none =>
    rw [chooseImage_plain s hgiven]
    exact .plain hgiven
  | some overlay =>
    rw [chooseImage_overlay s hgiven]
    exact .own hgiven

inductive PrepareOutcome (probe : Probe) (o : Options) (s : Progress) : Ending Launch → Prop
  | refused (off : o.uboot = false) (given : o.overlay.isSome = true) :
      PrepareOutcome probe o s (.error (.config .overlayWithoutUboot) s)
  | unknownMachine {e : Failure} (fits : o.uboot = true ∨ o.overlay = none)
      (unknown : machineOf s.host o = .error e) : PrepareOutcome probe o s (.error e s)
  | bootFailed {machine : String} {e : Failure} {t : Progress}
      (fits : o.uboot = true ∨ o.overlay = none) (known : machineOf s.host o = .ok machine)
      (boot : chooseBootImage o ⟨o.dir, machine⟩ s = .error e t) :
      PrepareOutcome probe o s (.error e t)
  | imageFailed {machine : String} {bootImage : BootImage} {e : Failure} {t u : Progress}
      (fits : o.uboot = true ∨ o.overlay = none) (known : machineOf s.host o = .ok machine)
      (boot : chooseBootImage o ⟨o.dir, machine⟩ s = .ok bootImage t)
      (disk : chooseImage o ⟨o.dir, machine⟩ t = .error e u) :
      PrepareOutcome probe o s (.error e u)
  | completed {machine : String} {bootImage : BootImage} {image : Path} {t u : Progress}
      (fits : o.uboot = true ∨ o.overlay = none) (known : machineOf s.host o = .ok machine)
      (boot : chooseBootImage o ⟨o.dir, machine⟩ s = .ok bootImage t)
      (disk : chooseImage o ⟨o.dir, machine⟩ t = .ok image u) :
      PrepareOutcome probe o s (complete probe o machine bootImage image u)

theorem prepare_refused (off : o.uboot = false) (given : o.overlay.isSome = true) :
    prepare probe o s = .error (.config .overlayWithoutUboot) s := by
  simp [prepare, off, given, bind_apply]

/-- With an overlay there is U-Boot. -/
theorem prepare_apply (fits : o.uboot = true ∨ o.overlay = none) :
    prepare probe o s = match machineOf s.host o with
      | .error e => .error e s
      | .ok machine =>
        match chooseBootImage o ⟨o.dir, machine⟩ s with
        | .error e t => .error e t
        | .ok bootImage t =>
          match chooseImage o ⟨o.dir, machine⟩ t with
          | .error e u => .error e u
          | .ok image u => complete probe o machine bootImage image u := by
  have hfits : (!o.uboot && o.overlay.isSome) = false := by
    rcases fits with hon | hplain
    · simp [hon]
    · simp [hplain]
  simp only [prepare, hfits, Bool.false_eq_true, if_false, bind_apply, chooseMachine_apply]
  cases machineOf s.host o with
  | error e => rfl
  | ok machine =>
    simp only
    cases chooseBootImage o ⟨o.dir, machine⟩ s with
    | error e t => rfl
    | ok bootImage t =>
      simp only
      cases chooseImage o ⟨o.dir, machine⟩ t <;> rfl

theorem prepare_outcome {s : Progress} {r : Ending Launch} (h : prepare probe o s = r) :
    PrepareOutcome probe o s r := by
  subst h
  by_cases hfits : o.uboot = true ∨ o.overlay = none
  · rw [prepare_apply s hfits]
    cases hmachine : machineOf s.host o with
    | error e => exact .unknownMachine hfits hmachine
    | ok machine =>
      simp only
      cases hboot : chooseBootImage o ⟨o.dir, machine⟩ s with
      | error e t => exact .bootFailed hfits hmachine hboot
      | ok bootImage t =>
        simp only
        cases hdisk : chooseImage o ⟨o.dir, machine⟩ t with
        | error e u => exact .imageFailed hfits hmachine hboot hdisk
        | ok image u => exact .completed hfits hmachine hboot hdisk
  · obtain ⟨hoff, hgiven⟩ : o.uboot = false ∧ o.overlay.isSome = true := by
      rw [not_or] at hfits
      exact ⟨by simpa using hfits.1, Option.isSome_iff_ne_none.2 hfits.2⟩
    rw [prepare_refused s hoff hgiven]
    exact .refused hoff hgiven

theorem prepare_ok {s t : Progress} {launch : Launch} (h : prepare probe o s = .ok launch t) :
    (o.uboot = true ∨ o.overlay = none) ∧ ∃ machine bootImage image u v,
      machineOf s.host o = .ok machine ∧
      chooseBootImage o ⟨o.dir, machine⟩ s = .ok bootImage u ∧
      chooseImage o ⟨o.dir, machine⟩ u = .ok image v ∧
      complete probe o machine bootImage image v = .ok launch t := by
  generalize hrun : (.ok launch t : Ending Launch) = r at h
  cases prepare_outcome h with
  | refused => cases hrun
  | unknownMachine => cases hrun
  | bootFailed => cases hrun
  | imageFailed => cases hrun
  | completed hfits hknown hboot hdisk =>
    exact ⟨hfits, _, _, _, _, _, hknown, hboot, hdisk, rfl⟩

theorem prepare_kvm {s t : Progress} {launch : Launch} (h : prepare probe o s = .ok launch t) :
    launch.kvm = o.kvmOn probe t.host := by
  obtain ⟨-, _, _, _, _, _, -, -, -, hlast⟩ := prepare_ok h
  obtain ⟨_, _, -, rfl, -⟩ := complete_ok hlast
  rfl

theorem run_kvm {h : Host} {launch : Launch}
    (decided : (h.run (prepare probe o)).result = .ok launch) :
    launch.kvm = o.kvmOn probe (h.run (prepare probe o)).host := by
  obtain ⟨t, hend, hrun⟩ := Host.run_ok decided
  rw [hrun]
  exact prepare_kvm hend

end Preparation

/-! A host with the deployment of one machine, small enough to run preparations on. -/

namespace Sample

def place (names : List String) : Location := (names.map Text.encode).reverse

def rom : Location × Entry := (place ["d", "m", "u-boot-qemux86-64.rom"], .file [1] false)

def image : Location × Entry := (place ["d", "m", "i-m.wic"], .file [2] false)

def established : List (Location × Entry) :=
  [(place ["v"], .file [3] false), (place ["v.u-boot.rom"], .file [1] false),
    (place ["v.img"], .file [2] false)]

/-- The root directory with the directory of the machine, and more entries. -/
def files (entries : List (Location × Entry))
    (fits : ∀ e ∈ (place ["d"], .directory) :: (place ["d", "m"], .directory) :: entries,
      e.2.Fits e.1) : FileSystem where
  entries := (place ["d"], .directory) :: (place ["d", "m"], .directory) :: entries
  fits := fits
  bars := []

def host (files : FileSystem) : Host where
  files := files
  cwd := []
  held := []
  searchPath := none
  home := .root
  dice := .ofArray #[]

def complete : Host := host (files [rom, image] (by decide +kernel))

/-- A host whose U-Boot image is a program that says yes, and becomes the host's own probe when it
is copied. -/
def selfServing : Host :=
  { host (files
      [(place ["d", "m", "u-boot-qemux86-64.rom"], .file (Text.encode "#!/bin/sh") true), image,
        (place ["v.u-boot.rom"], .link (.ofString "/d/kvm-ok"))] (by decide +kernel)) with
    searchPath := some [.ofString "/d"] }

/-- A host whose deployment lacks the disk image. -/
def imageless : Host := host (files [rom] (by decide +kernel))

/-- A host with an established overlay and the deployment. -/
def equipped : Host := host (files (rom :: image :: established) (by decide +kernel))

/-- A host with an established overlay whose deployment is gone. -/
def detached : Host := host (files established (by decide +kernel))

/-- A host with an established overlay, but whose working directory was removed. -/
def homeless : Host :=
  let files := files ((place ["w"], .directory) :: established) (by decide +kernel)
  { host files with cwd := place ["w"] }.remove (place ["w"])

/-- The place of a directory so deep that no path from the root is short enough to be followed. -/
def depths (n : Nat) : Location := List.replicate n (List.replicate FileSystem.maxName 100)

/-- A place whose path is just short enough for a short name after it. -/
def brink : Location := List.replicate 250 100 :: depths 15

/-- Directories below one another. -/
def stairs (depth : Nat) : List (Location × Entry) :=
  (List.range depth).map fun n => (depths (n + 1), .directory)

def deepEntries : List (Location × Entry) :=
  let here (names : List String) : Location := place names ++ depths 16
  [(here ["m"], .directory), (here ["m", "v-m.wic"], .file [2] false),
    (here ["r"], .file [1] false), (here ["v"], .link (.ofString "v.img"))] ++ stairs 16

/-- A host whose working directory is deep down, with a link as its overlay that leads to the
overlay's own copy of the disk image. -/
def deep : Host :=
  let files : FileSystem := { entries := deepEntries, fits := by decide +kernel, bars := [] }
  { host files with cwd := depths 16 }

def options : Options :=
  { Options.default with
    machine := .given "m"
    dir := .ofString "/d"
    imageName := "i"
    overlay := some (.ofString "/v")
    mac := .given ⟨0x52, 0x54, 0, 0, 0, 1⟩
    kvm := .given false }

/-- Options for the deployment that lies in the deep directory itself. -/
def inDepth : Options :=
  { options with
    dir := .ofString "."
    imageName := "v"
    bootloader := some (.ofString "r")
    overlay := none }

/-- The sample options, with the question of acceleration left to a probe. -/
def asking : Options := { options with kvm := .detect }

end Sample

end LaunchPlan
