import LaunchPlan.Proofs.Launch.OptionList
import LaunchPlan.Proofs.Options.Record
import LaunchPlan.Proofs.Path.Text
import LaunchPlan.Proofs.Preparation.ImageName
import LaunchPlan.Proofs.Preparation.Presence

/-!
The paths in the commands of a launch, and the paths that were decided on. Main statements:
`givesPath_iff`, an option list gives the path that was put into it exactly if that is text without
a comma, `prepare_isText`, the paths of a launch are text if all the names are that they are made
of, and `written_paths_iff`, when the commands of a launch name its files.
-/

namespace LaunchPlan

namespace OptionList

variable {text tail rest : List Char} {c : Char}

/-- What follows a field in a list: nothing, or a comma and another field, which does not begin with
one. -/
def IsTail (tail : List Char) : Prop := tail = [] ∨ ∃ c more, tail = ',' :: c :: more ∧ c ≠ ','

/-- What follows the first field of a list that was written to be read back. -/
def IsJoined (tail : List Char) : Prop := tail = [] ∨ ∃ more, tail = ',' :: more

/-- With more commas before it, a text is not what it was once its own commas are doubled. -/
theorem replicate_quoted_ne (joined : IsJoined rest) (follows : IsTail tail) (n : Nat) :
    List.replicate (n + 1) ',' ++ (quoted text ++ rest) ≠ text ++ tail := by
  induction text generalizing n with
  | nil =>
    intro hsame
    rcases follows with rfl | ⟨c, more, rfl, hc⟩
    · simp at hsame
    · rw [List.replicate_succ, List.cons_append, List.nil_append, List.cons.injEq] at hsame
      obtain ⟨-, hsame⟩ := hsame
      cases n with
      | zero =>
        rcases joined with rfl | ⟨more', rfl⟩
        · simp [quoted] at hsame
        · simp only [quoted, List.replicate_zero, List.nil_append, List.flatMap_nil,
            List.cons.injEq] at hsame
          exact hc hsame.1.symm
      | succ n =>
        rw [List.replicate_succ, List.cons_append, List.cons.injEq] at hsame
        exact hc hsame.1.symm
  | cons c text ih =>
    intro hsame
    rw [List.replicate_succ, List.cons_append, List.cons_append, List.cons.injEq] at hsame
    obtain ⟨rfl, hsame⟩ := hsame
    -- The comma in the text stands for two, so there is one more before what remains.
    apply ih (n + 1)
    have htwo : List.replicate (n + 1 + 1) ',' = List.replicate n ',' ++ [',', ','] := by
      rw [show [',', ','] = List.replicate 2 ',' from rfl, List.replicate_append_replicate]
    rw [htwo, List.append_assoc, ← hsame, quoted_cons, if_pos rfl, List.append_assoc]

/-- A text before the end of its field stands there as it has to be written only if it holds no
comma. -/
theorem free_of_quoted (joined : IsJoined rest) (follows : IsTail tail)
    (same : quoted text ++ rest = text ++ tail) : ',' ∉ text := by
  induction text with
  | nil => exact List.not_mem_nil
  | cons c text ih =>
    rw [quoted_cons] at same
    by_cases hc : c = ','
    · subst hc
      simp only [if_true, List.cons_append, List.nil_append, List.cons.injEq,
        true_and] at same
      exact absurd same (replicate_quoted_ne joined follows 0)
    · rw [if_neg hc, List.append_assoc, List.singleton_append, List.cons_append,
        List.cons.injEq] at same
      rw [List.mem_cons, not_or]
      exact ⟨Ne.symm hc, ih same.2⟩

theorem texts_append_free {front : List Char} (free : ',' ∉ front) (cs : List Char) :
    texts (front ++ cs) = (texts cs).modifyHead (front ++ ·) := by
  induction front with
  | nil =>
    obtain ⟨first, more, hread⟩ := List.exists_cons_of_ne_nil (texts_ne_nil cs)
    simp [hread]
  | cons c front ih =>
    rw [List.mem_cons, not_or] at free
    obtain ⟨first, more, hread⟩ := List.exists_cons_of_ne_nil (texts_ne_nil cs)
    rw [List.cons_append, texts_cons (Ne.symm free.1), ih free.2, hread]
    rfl

theorem isJoined_of_join (first : List Char) (more : List (List Char)) :
    ∃ rest, join (first :: more) = quoted first ++ rest ∧ IsJoined rest := by
  by_cases hmore : more = []
  · exact ⟨[], by simp [hmore, join], .inl rfl⟩
  · exact ⟨_, join_cons hmore, .inr ⟨_, rfl⟩⟩

/-- What follows an item that is written side by side with others. -/
theorem isTail_of_written (i : Item) {others : List Item}
    (plain : ∀ j ∈ others, j.name ≠ "" ∧ ',' ∉ j.text) :
    ∃ tail, [','].intercalate ((i :: others).map Item.text) = i.text ++ tail ∧ IsTail tail := by
  cases others with
  | nil => exact ⟨[], by simp, .inl rfl⟩
  | cons j others =>
    obtain ⟨hnamed, hfree⟩ := plain j List.mem_cons_self
    obtain ⟨c, more, htext⟩ := List.exists_cons_of_ne_nil (Item.text_ne_nil hnamed)
    have hc : c ≠ ',' := by
      rintro rfl
      exact hfree (by rw [htext]; exact List.mem_cons_self)
    obtain ⟨after, hafter⟩ :
        ∃ after, [','].intercalate ((j :: others).map Item.text) = c :: after := by
      cases others with
      | nil => exact ⟨more, by simp [htext]⟩
      | cons k others =>
        exact ⟨_, by rw [List.map_cons, htext, List.intercalate_cons_of_ne_nil (by simp)]; rfl⟩
    refine ⟨',' :: c :: after, ?_, .inr ⟨c, after, rfl, hc⟩⟩
    rw [List.map_cons, List.intercalate_cons_of_ne_nil (by simp), hafter, List.append_assoc]
    rfl

/-- The first item of a list is read with the key that it was written with. Its value ends where the
first field does. -/
theorem items_cons {key value : String} {others : List Item} (named : '=' ∉ key.toList)
    (free : ',' ∉ key.toList)
    (written : [','].intercalate ((⟨key, some value⟩ :: others).map Item.text)
      = (⟨key, some value⟩ : Item).text ++ tail) :
    ∃ first more, texts (value.toList ++ tail) = first :: more ∧
      items (",".intercalate ((⟨key, some value⟩ :: others).map Item.written))
        = ⟨key, some (.ofList first)⟩ :: more.map Item.ofText := by
  obtain ⟨first, more, hfirst⟩ := List.exists_cons_of_ne_nil (texts_ne_nil (value.toList ++ tail))
  have hkey : ',' ∉ key.toList ++ ['='] := by simpa using free
  have hlist : texts ([','].intercalate ((⟨key, some value⟩ :: others).map Item.text))
      = (key.toList ++ ['='] ++ first) :: more := by
    have hcut := texts_append_free hkey (value.toList ++ tail)
    rw [hfirst, List.modifyHead_cons] at hcut
    rw [written, ← hcut]
    simp [Item.text]
  have hitem : Item.ofText (key.toList ++ ['='] ++ first) = ⟨key, some (.ofList first)⟩ := by
    have hnamed : '=' ∉ (⟨key, some (.ofList first)⟩ : Item).name.toList := named
    rw [← Item.ofText_text hnamed]
    simp [Item.text]
  exact ⟨first, more, hfirst, by rw [items, toList_written, hlist, List.map_cons, hitem]⟩

/-- Read as an option list, a text gives one value for a key, and this is the path. -/
def GivesPath (list key : String) (p : Path) : Prop :=
  ∃ value, (items list).filter (·.name = key) = [⟨key, some value⟩] ∧ Path.ofString value = p

/-- A path that is put into an option list is given by the list exactly if it is text and holds no
comma. -/
theorem givesPath_iff {key : String} {others : List Item} (named : key ≠ "" ∧ '=' ∉ key.toList)
    (free : ',' ∉ key.toList)
    (plain : ∀ j ∈ others, (j.name ≠ "" ∧ '=' ∉ j.name.toList) ∧ j.name ≠ key ∧ ',' ∉ j.text)
    (p : Path) :
    GivesPath (",".intercalate ((⟨key, some p.display⟩ :: others).map Item.written)) key p
      ↔ p.IsText ∧ ',' ∉ p.display.toList := by
  have hothers : others.filter (·.name = key) = [] := by
    rw [List.filter_eq_nil_iff]
    intro j hj
    simpa using (plain j hj).2.1
  constructor
  · rintro ⟨value, hread, rfl⟩
    have htext : (Path.ofString value).IsText := Path.isText_ofString value
    refine ⟨htext, ?_⟩
    rw [Path.display_ofString] at hread ⊢
    obtain ⟨tail, hwritten, hfollows⟩ := isTail_of_written ⟨key, some value⟩
      fun j hj => ⟨(plain j hj).1.1, (plain j hj).2.2⟩
    obtain ⟨first, more, hfirst, hitems⟩ := items_cons named.2 free hwritten
    rw [hitems, List.filter_cons_of_pos (by simp)] at hread
    have hvalue : first = value.toList := by
      have hsame := (List.cons.inj hread).1
      simp only [Item.mk.injEq, Option.some.injEq, true_and] at hsame
      rw [← hsame, String.toList_ofList]
    have hjoin := join_texts (value.toList ++ tail)
    rw [hfirst, hvalue] at hjoin
    obtain ⟨rest, hrest, hjoined⟩ := isJoined_of_join value.toList more
    exact free_of_quoted hjoined hfollows (hrest.symm.trans hjoin)
  · rintro ⟨htext, hfree⟩
    refine ⟨p.display, ?_, Path.ofString_display_iff.2 htext⟩
    have hread : items (",".intercalate ((⟨key, some p.display⟩ :: others).map Item.written))
        = ⟨key, some p.display⟩ :: others := by
      refine (items_written_iff (List.cons_ne_nil _ _) ?_).2 ?_
      · rw [List.forall_mem_cons]
        exact ⟨named, fun j hj => (plain j hj).1⟩
      · rw [List.forall_mem_cons]
        exact ⟨by simp [Item.text, free, hfree], fun j hj => (plain j hj).2.2⟩
    rw [hread, List.filter_cons_of_pos (by simp), hothers]

end OptionList

namespace Launch

open OptionList

variable (l : Launch)

theorem gives_drive_iff :
    GivesPath (",".intercalate (l.driveItems.map Item.written)) "file" l.image
      ↔ l.image.IsText ∧ 0x2C ∉ l.image.bytes := by
  have hinterface : ',' ∉ l.driveInterface.name.toList := by
    cases l.driveInterface <;> decide
  rw [driveItems, givesPath_iff (by decide) (by decide) (by simp [Item.text, hinterface])]
  exact and_congr_right fun htext => not_congr htext.comma_mem_display_iff

theorem gives_backing_iff :
    GivesPath (",".intercalate ((backingItems l.image).map Item.written)) "backing_file" l.image
      ↔ l.image.IsText ∧ 0x2C ∉ l.image.bytes := by
  rw [backingItems, givesPath_iff (by decide) (by decide) (by simp)]
  exact and_congr_right fun htext => not_congr htext.comma_mem_display_iff

end Launch

namespace Preparation

variable {probe : Probe} {o : Options} {d : Deployment} {h : Host} {s t : Progress} {p : Path}

theorem isText_romSource (names : h.files.HasTextNames h.cwd) (text : o.HasTextPaths)
    (directory : d.directory.IsText) (found : romSource h o d = .ok p) : p.IsText := by
  unfold romSource at found
  cases hgiven : o.bootloader with
  | some path =>
    rw [hgiven] at found
    cases found
    exact Path.isSome_text?_iff.1 (text.bootloader _ hgiven)
  | none =>
    rw [hgiven] at found
    exact FileSystem.isText_absolute names (Deployment.isText_bootloader directory) found

theorem isText_imageSource (names : h.files.HasTextNames h.cwd) (directory : d.directory.IsText)
    (found : imageSource h o d = .ok p) : p.IsText := by
  cases hpresent : h.isPresent (.ofString o.imageName) with
  | true =>
    rw [imageSource_of_present hpresent] at found
    exact FileSystem.isText_canonical names found
  | false =>
    rw [imageSource_of_absent hpresent] at found
    cases found
    exact Deployment.isText_image directory _ _

theorem chooseBootImage_isText {bootImage : BootImage}
    (names : s.host.files.HasTextNames s.host.cwd) (text : o.HasTextPaths)
    (directory : d.directory.IsText) (h : chooseBootImage o d s = .ok bootImage t) :
    bootImage.path.IsText := by
  generalize hrun : (.ok bootImage t : Ending BootImage) = r at h
  cases chooseBootImage_run h with
  | firmware =>
    cases hrun
    exact Path.isText_ofString "OVMF.fd"
  | kernel =>
    obtain ⟨kernel, hkernel, rfl⟩ := Ending.map_ok hrun.symm
    exact FileSystem.isText_settle names (Deployment.isText_kernel directory) (plainStage_ok hkernel)
  | plainRom =>
    obtain ⟨rom, hrom, rfl⟩ := Ending.map_ok hrun.symm
    exact isText_romSource names text directory (plainStage_ok hrom)
  | ownRom _ _ hgiven =>
    obtain ⟨rom, hrom, rfl⟩ := Ending.map_ok hrun.symm
    obtain ⟨rfl, -⟩ := ownStage_ok hrom
    exact (Path.isSome_text?_iff.1 (text.overlay _ hgiven)).withSuffix _

/-- The paths of a launch are text where all the names are that they are made of. -/
theorem prepare_isText {launch : Launch} (names : s.host.files.HasTextNames s.host.cwd)
    (text : o.HasTextPaths) (h : prepare probe o s = .ok launch t) :
    launch.bootImage.path.IsText ∧ launch.image.IsText := by
  obtain ⟨u, v, stages⟩ := prepare_stages h
  have hdirectory : o.dir.IsText := Path.isSome_text?_iff.1 text.dir
  refine ⟨chooseBootImage_isText names text hdirectory stages.boot, ?_⟩
  cases hoverlay : o.overlay with
  | none =>
    have himage := prepare_image hoverlay h
    cases hsource : imageSource s.host o ⟨o.dir, launch.machine⟩ with
    | error fault =>
      rw [hsource] at himage
      cases himage
    | ok source =>
      rw [hsource] at himage
      exact FileSystem.isText_settle names (isText_imageSource names hdirectory hsource) himage
  | some overlay =>
    rw [(prepare_realizes h).own overlay hoverlay]
    exact (Path.isSome_text?_iff.1 (text.overlay overlay hoverlay)).withSuffix _

open OptionList

/-- The commands of a launch name its files exactly if the paths of the files are text, and hold no
comma where they stand in an option list. They are text where all names are. -/
theorem written_paths_iff (probe : Probe) (o : Options) (h : Host) {launch : Launch}
    (decided : (h.run (prepare probe o)).result = .ok launch) :
    (launch.command.take 3 = [emulator, if o.efi || o.uboot then "-bios" else "-kernel",
        launch.bootImage.path.display] ∧
      (Text.encode launch.bootImage.path.display = launch.bootImage.path.bytes
        ↔ launch.bootImage.path.IsText)) ∧
    (o.overlay = none → ∃ list, (launch.command.drop 3).take 2 = ["-drive", list] ∧
      list = "file=" ++ launch.image.display ++ ",if=" ++ (if o.uboot then "ide" else "virtio")
        ++ ",format=raw,snapshot=on" ∧
      (Text.encode launch.image.display = launch.image.bytes ↔ launch.image.IsText) ∧
      (GivesPath list "file" launch.image ↔ launch.image.IsText ∧ 0x2C ∉ launch.image.bytes)) ∧
    (∀ overlay, o.overlay = some overlay → ∃ list,
      launch.overlayCommand
        = some ["qemu-img", "create", "-o", list, "-f", "qcow2", overlay.display] ∧
      list = "backing_file=" ++ launch.image.display ∧
      (Text.encode launch.image.display = launch.image.bytes ↔ launch.image.IsText) ∧
      (GivesPath list "backing_file" launch.image
        ↔ launch.image.IsText ∧ 0x2C ∉ launch.image.bytes)) ∧
    (h.files.HasTextNames h.cwd → o.HasTextPaths →
      launch.bootImage.path.IsText ∧ launch.image.IsText) ∧
    (MustFind h o → let after := (h.run (prepare probe o)).host
      after.isPresent launch.image = true ∧
      (o.efi = false → after.isPresent launch.bootImage.path = true)) := by
  obtain ⟨t, hend, hrun⟩ := Host.run_ok decided
  have hrealizes := prepare_realizes hend
  refine ⟨?boot, ?drive, ?backing, fun names text => prepare_isText names text hend, ?present⟩
  case boot => exact ⟨hrealizes.take_command, Text.encode_display_iff⟩
  case drive =>
    intro plain
    have hlist := hrealizes.drive_command plain
    refine ⟨_, hlist, rfl, Text.encode_display_iff, ?_⟩
    rw [Launch.drop_command, launch.driveTokens_eq (hrealizes.overlay.trans plain)] at hlist
    rw [← (List.cons.inj (List.cons.inj hlist).2).1]
    exact launch.gives_drive_iff
  case backing =>
    intro overlay given
    exact ⟨_, launch.overlayCommand_eq (hrealizes.overlay.trans given),
      Launch.written_backing launch.image, Text.encode_display_iff, launch.gives_backing_iff⟩
  case present =>
    intro must
    rw [hrun]
    exact prepare_present (s := h.begin) must hend

end Preparation

namespace Sample

/-- A host where the directory of the machine is a link to one whose name is no text. -/
def raw : Host :=
  host {
    entries := [(place ["d"], .directory), (place ["d", "m"], .link ⟨[0x2F, 0xFF]⟩),
      ([[0xFF]], .directory), ([Text.encode "bzImage-qemux86-64.bin", [0xFF]], .file [1] false),
      ([Text.encode "i-m.wic", [0xFF]], .file [2] false)]
    fits := by decide +kernel
    bars := [] }

/-- The sample options for a machine that boots its kernel itself. -/
def kernelOnly : Options := { options with uboot := false, overlay := none }

end Sample

namespace Preparation

open OptionList

theorem written_paths_sample :
    ∃ launch list,
      (Sample.complete.run (prepare (.known false) Sample.recording)).result = .ok launch ∧
      launch.command.take 3 = [emulator, "-bios", launch.bootImage.path.display] ∧
      Text.encode launch.bootImage.path.display = launch.bootImage.path.bytes ∧
      (launch.command.drop 3).take 2 = ["-drive", list] ∧ GivesPath list "file" launch.image := by
  have hdecided : (Sample.complete.run (prepare (.known false) Sample.recording)).result
      = .ok (Sample.recording.launch "m" (.bios (.ofString "/d/m/u-boot-qemux86-64.rom"))
        (.ofString "/d/m/i-m.wic") (⟨0x52, 0x54, 0, 0, 0, 1⟩, none) 8990 2222 false) := by
    decide +kernel
  obtain ⟨⟨hboot, hshown⟩, hdrive, -, -, -⟩ :=
    written_paths_iff (.known false) Sample.recording Sample.complete hdecided
  obtain ⟨list, hlist, -, -, hgives⟩ := hdrive rfl
  exact ⟨_, list, hdecided, hboot, hshown.2 (Path.isText_ofString _), hlist,
    hgives.2 ⟨Path.isText_ofString _, by decide +kernel⟩⟩

/-- The path of a kernel that is not text is shown as another one, which leads nowhere. A comma in
the path of an image gives another image. The firmware need not be there. -/
theorem written_path_lost :
    (∃ launch shown, (Sample.raw.run (prepare (.known false) Sample.kernelOnly)).result = .ok launch ∧
      launch.command.take 3 = [emulator, "-kernel", shown] ∧
      Text.encode shown ≠ launch.bootImage.path.bytes ∧
      Sample.raw.isPresent launch.bootImage.path = true ∧
      Sample.raw.isPresent (.ofString shown) = false) ∧
    (∃ launch list, (Sample.parted.run
        (prepare (.known false) { Sample.recording with imageName := "i,if=scsi" })).result
          = .ok launch ∧
      (launch.command.drop 3).take 2 = ["-drive", list] ∧ ¬GivesPath list "file" launch.image) ∧
    ∃ launch, (Sample.complete.run
        (prepare (.known false) { Sample.recording with efi := true })).result = .ok launch ∧
      Sample.complete.isPresent launch.bootImage.path = false := by
  refine ⟨?_, ?_, ?_⟩
  · have hdecided : (Sample.raw.run (prepare (.known false) Sample.kernelOnly)).result
        = .ok (Sample.kernelOnly.launch "m"
          (.kernel ⟨[0x2F, 0xFF, 0x2F] ++ Text.encode "bzImage-qemux86-64.bin"⟩)
          ⟨[0x2F, 0xFF, 0x2F] ++ Text.encode "i-m.wic"⟩ (⟨0x52, 0x54, 0, 0, 0, 1⟩, none) 8990 2222
          false) := by
      decide +kernel
    refine ⟨_, "/\ufffd/bzImage-qemux86-64.bin", hdecided, ?_, ?_, ?_, ?_⟩
    · decide +kernel
    · decide +kernel
    · decide +kernel
    · decide +kernel
  · have hdecided : (Sample.parted.run
        (prepare (.known false) { Sample.recording with imageName := "i,if=scsi" })).result
        = .ok (Sample.recording.launch "m" (.bios (.ofString "/d/m/u-boot-qemux86-64.rom"))
          (.ofString "/d/m/i,if=scsi-m.wic") (⟨0x52, 0x54, 0, 0, 0, 1⟩, none) 8990 2222 false) := by
      decide +kernel
    refine ⟨_, "file=/d/m/i,if=scsi-m.wic,if=ide,format=raw,snapshot=on", hdecided, ?_, ?_⟩
    · decide +kernel
    · rintro ⟨value, hread, hvalue⟩
      have hfile : (items "file=/d/m/i,if=scsi-m.wic,if=ide,format=raw,snapshot=on").filter
          (·.name = "file") = [⟨"file", some "/d/m/i"⟩] := by
        decide +kernel
      obtain rfl : value = "/d/m/i" := by
        rw [hfile] at hread
        simpa using hread.symm
      exact absurd hvalue (by decide +kernel)
  · have hdecided : (Sample.complete.run
        (prepare (.known false) { Sample.recording with efi := true })).result
        = .ok ({ Sample.recording with efi := true }.launch "m" (.bios efiFirmware)
          (.ofString "/d/m/i-m.wic") (⟨0x52, 0x54, 0, 0, 0, 1⟩, none) 8990 2222 false) := by
      decide +kernel
    exact ⟨_, hdecided, by decide +kernel⟩

end Preparation

end LaunchPlan
