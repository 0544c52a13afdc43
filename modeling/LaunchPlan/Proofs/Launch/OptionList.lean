import LaunchPlan.Proofs.Launch.Layout

/-!
The option lists in the commands of a launch, as the emulator and its image tool read them: a comma
ends a field, and two commas in a row stand for one. Main statements: `items_written_iff`, items
that are written side by side are read back exactly if none of them holds a comma, and
`option_lists_hold_iff`, the option lists of a launch hold the items that were written exactly if
the path among them holds none.
-/

namespace LaunchPlan

namespace OptionList

/-- The texts of the fields. Commas are paired from the left, and one without a partner ends a
field. -/
def texts : List Char → List (List Char)
  | ',' :: ',' :: rest => (texts rest).modifyHead (',' :: ·)
  | c :: rest => if c = ',' then [] :: texts rest else (texts rest).modifyHead (c :: ·)
  | [] => [[]]

/-- A text as it has to be written to be read back: each comma twice. -/
def quoted (text : List Char) : List Char :=
  text.flatMap fun c => if c = ',' then [',', ','] else [c]

def join (fields : List (List Char)) : List Char := [','].intercalate (fields.map quoted)

theorem texts_ne_nil (cs : List Char) : texts cs ≠ [] := by
  fun_induction texts cs with
  | case1 rest ih => rwa [Ne, List.modifyHead_eq_nil_iff]
  | case2 => exact List.cons_ne_nil _ _
  | case3 c rest _ _ ih => rwa [Ne, List.modifyHead_eq_nil_iff]
  | case4 => exact List.cons_ne_nil _ _

theorem texts_cons {c : Char} (other : c ≠ ',') (cs : List Char) :
    texts (c :: cs) = (texts cs).modifyHead (c :: ·) := by
  rw [texts.eq_2 c cs fun _ h => absurd h other, if_neg other]

theorem quoted_cons (c : Char) (text : List Char) :
    quoted (c :: text) = (if c = ',' then [',', ','] else [c]) ++ quoted text := rfl

theorem join_cons {first : List Char} {rest : List (List Char)} (more : rest ≠ []) :
    join (first :: rest) = quoted first ++ ',' :: join rest := by
  have hmore : rest.map quoted ≠ [] := by simpa using more
  rw [join, List.map_cons, List.intercalate_cons_of_ne_nil hmore, List.append_assoc,
    List.singleton_append, join]

theorem join_modifyHead {fields : List (List Char)} (nonempty : fields ≠ []) (c : Char) :
    join (fields.modifyHead (c :: ·)) = (if c = ',' then [',', ','] else [c]) ++ join fields := by
  obtain ⟨first, rest, rfl⟩ := List.exists_cons_of_ne_nil nonempty
  rw [List.modifyHead_cons]
  by_cases hrest : rest = []
  · subst hrest
    simp only [join, List.map_cons, List.map_nil, List.intercalate_singleton, quoted_cons]
  · rw [join_cons hrest, join_cons hrest, quoted_cons, List.append_assoc]

/-- Reading forgets nothing: what was read can be written as it was. -/
theorem join_texts (cs : List Char) : join (texts cs) = cs := by
  fun_induction texts cs with
  | case1 rest ih =>
    rw [join_modifyHead (texts_ne_nil rest), ih]
    rfl
  | case2 rest _ ih =>
    rw [join_cons (texts_ne_nil rest), ih]
    rfl
  | case3 c rest _ hother ih =>
    rw [join_modifyHead (texts_ne_nil rest), ih, if_neg hother, List.singleton_append]
  | case4 => rfl

theorem texts_of_notMem {text : List Char} (free : ',' ∉ text) : texts text = [text] := by
  induction text with
  | nil => rfl
  | cons c text ih =>
    rw [List.mem_cons, not_or] at free
    rw [texts_cons (Ne.symm free.1), ih free.2]
    rfl

/-- A single comma ends a field. -/
theorem texts_append {text rest : List Char} (free : ',' ∉ text)
    (single : rest.head? ≠ some ',') : texts (text ++ ',' :: rest) = text :: texts rest := by
  induction text with
  | nil =>
    have hsingle (after : List Char) : ',' = ',' → rest = ',' :: after → False := by
      rintro - rfl
      exact single rfl
    rw [List.nil_append, texts.eq_2 ',' rest hsingle, if_pos rfl]
  | cons c text ih =>
    rw [List.mem_cons, not_or] at free
    rw [List.cons_append, texts_cons (Ne.symm free.1), ih free.2]
    rfl

theorem texts_intercalate {fields : List (List Char)} (nonempty : fields ≠ [])
    (filled : ∀ text ∈ fields, text ≠ []) (free : ∀ text ∈ fields, ',' ∉ text) :
    texts ([','].intercalate fields) = fields := by
  induction fields with
  | nil => exact absurd rfl nonempty
  | cons first rest ih =>
    rw [List.forall_mem_cons] at filled free
    cases rest with
    | nil =>
      rw [List.intercalate_singleton]
      exact texts_of_notMem free.1
    | cons second rest =>
      have hsingle : ([','].intercalate (second :: rest)).head? ≠ some ',' := by
        obtain ⟨c, text, rfl⟩ := List.exists_cons_of_ne_nil (filled.2 _ List.mem_cons_self)
        have hother : c ≠ ',' := by
          rintro rfl
          exact free.2 _ List.mem_cons_self List.mem_cons_self
        cases rest with
        | nil => simpa using hother
        | cons third rest => simpa [List.intercalate_cons_cons] using hother
      rw [List.intercalate_cons_of_ne_nil (List.cons_ne_nil _ _), List.append_assoc,
        List.singleton_append, texts_append free.1 hsingle,
        ih (List.cons_ne_nil _ _) filled.2 free.2]

theorem length_quoted (text : List Char) :
    (quoted text).length = text.length + text.count ',' := by
  induction text with
  | nil => rfl
  | cons c text ih =>
    rw [quoted_cons, List.length_append, ih, List.length_cons]
    by_cases hcomma : c = ','
    · rw [if_pos hcomma, hcomma, List.count_cons_self, List.length_cons, List.length_singleton]
      omega
    · rw [if_neg hcomma, List.count_cons_of_ne hcomma, List.length_singleton]
      omega

/-- To be read back a list is longer by the commas in its fields than it is as it stands. -/
theorem length_join (fields : List (List Char)) :
    (join fields).length = ([','].intercalate fields).length + fields.flatten.count ',' := by
  induction fields with
  | nil => rfl
  | cons first rest ih =>
    by_cases hrest : rest = []
    · subst hrest
      simp [join, length_quoted]
    · rw [join_cons hrest, List.intercalate_cons_of_ne_nil hrest, List.flatten_cons,
        List.count_append]
      simp only [List.length_append, List.length_cons, List.length_nil, length_quoted, ih]
      omega

theorem texts_intercalate_iff {fields : List (List Char)} (nonempty : fields ≠ [])
    (filled : ∀ text ∈ fields, text ≠ []) :
    texts ([','].intercalate fields) = fields ↔ ∀ text ∈ fields, ',' ∉ text := by
  constructor
  · intro hread
    have hjoin : join fields = [','].intercalate fields := by
      have hwritten := join_texts ([','].intercalate fields)
      rwa [hread] at hwritten
    have hlength := length_join fields
    rw [hjoin, Nat.left_eq_add, List.count_eq_zero] at hlength
    intro text member hcomma
    exact hlength (List.mem_flatten.2 ⟨text, member, hcomma⟩)
  · exact texts_intercalate nonempty filled

/-- What a field says: a name, and what stands behind the first equals sign, if there is one. -/
structure Item where
  name : String
  value : Option String
  deriving DecidableEq

namespace Item

def ofText (text : List Char) : Item :=
  match text.dropWhile (· ≠ '=') with
  | [] => ⟨.ofList text, none⟩
  | _ :: value => ⟨.ofList (text.takeWhile (· ≠ '=')), some (.ofList value)⟩

def text (i : Item) : List Char :=
  match i.value with
  | none => i.name.toList
  | some value => i.name.toList ++ '=' :: value.toList

def written (i : Item) : String := .ofList i.text

theorem text_ofText (text : List Char) : (ofText text).text = text := by
  have hparts := List.takeWhile_append_dropWhile (p := (· ≠ '=')) (l := text)
  unfold ofText
  cases hrest : text.dropWhile (· ≠ '=') with
  | nil => exact String.toList_ofList
  | cons c value =>
    have hmark : c = '=' := by
      have hhead := List.head?_dropWhile_not (· ≠ '=') text
      rw [hrest] at hhead
      simpa using hhead
    rw [hrest, hmark] at hparts
    simp only [Item.text, String.toList_ofList, hparts]

theorem ofText_injective {a b : List Char} (h : ofText a = ofText b) : a = b := by
  rw [← text_ofText a, h, text_ofText]

/-- An item is read off its own text, if its name ends where the equals sign stands. -/
theorem ofText_text {i : Item} (named : '=' ∉ i.name.toList) : ofText i.text = i := by
  have hname : ∀ c ∈ i.name.toList, decide (c ≠ '=') = true := by
    intro c member
    exact decide_eq_true fun hmark => named (hmark ▸ member)
  obtain ⟨name, value⟩ := i
  cases value with
  | none =>
    have hrest : name.toList.dropWhile (· ≠ '=') = [] := by
      rw [← List.append_nil name.toList, List.dropWhile_append_of_pos hname, List.dropWhile_nil]
    simp only [ofText, text, hrest, String.ofList_toList]
  | some value =>
    have hrest : (name.toList ++ '=' :: value.toList).dropWhile (· ≠ '=')
        = '=' :: value.toList := by
      rw [List.dropWhile_append_of_pos hname, List.dropWhile_cons_of_neg (by simp)]
    have hfront : (name.toList ++ '=' :: value.toList).takeWhile (· ≠ '=') = name.toList := by
      rw [List.takeWhile_append_of_pos hname, List.takeWhile_cons_of_neg (by simp),
        List.append_nil]
    simp only [ofText, text, hrest, hfront, String.ofList_toList]

theorem text_ne_nil {i : Item} (named : i.name ≠ "") : i.text ≠ [] := by
  have hname : i.name.toList ≠ [] := by rwa [Ne, String.toList_eq_nil_iff]
  unfold text
  cases i.value with
  | none => exact hname
  | some value => exact List.append_ne_nil_of_left_ne_nil hname _

end Item

def items (list : String) : List Item := (texts list.toList).map Item.ofText

theorem toList_written (written : List Item) :
    (",".intercalate (written.map Item.written)).toList
      = [','].intercalate (written.map Item.text) := by
  rw [String.toList_intercalate, List.map_map]
  refine congrArg₂ List.intercalate rfl (List.map_congr_left fun i _ => ?_)
  exact String.toList_ofList

/-- Items that are written side by side are read back exactly if there is no comma in them. -/
theorem items_written_iff {written : List Item} (nonempty : written ≠ [])
    (named : ∀ i ∈ written, i.name ≠ "" ∧ '=' ∉ i.name.toList) :
    items (",".intercalate (written.map Item.written)) = written
      ↔ ∀ i ∈ written, ',' ∉ i.text := by
  have hwritten : (written.map Item.text).map Item.ofText = written := by
    rw [List.map_map]
    exact (List.map_congr_left fun i member => Item.ofText_text (named i member).2).trans
      (List.map_id written)
  have hfilled : ∀ text ∈ written.map Item.text, text ≠ [] := by
    rw [List.forall_mem_map]
    exact fun i member => Item.text_ne_nil (named i member).1
  calc items (",".intercalate (written.map Item.written)) = written
    _ ↔ (texts ([','].intercalate (written.map Item.text))).map Item.ofText
          = (written.map Item.text).map Item.ofText := by rw [items, toList_written, hwritten]
    _ ↔ texts ([','].intercalate (written.map Item.text)) = written.map Item.text :=
        List.map_inj_right fun _ _ => Item.ofText_injective
    _ ↔ ∀ text ∈ written.map Item.text, ',' ∉ text :=
        texts_intercalate_iff (by simpa using nonempty) hfilled
    _ ↔ ∀ i ∈ written, ',' ∉ i.text := List.forall_mem_map

end OptionList

namespace Launch

open OptionList

variable (l : Launch)

/-- What is written about the drive. -/
def driveItems : List Item :=
  [⟨"file", some l.image.display⟩, ⟨"if", some l.driveInterface.name⟩, ⟨"format", some "raw"⟩,
    ⟨"snapshot", some "on"⟩]

/-- What is written about a file that the network is recorded in. -/
def captureItems (file : Path) : List Item := [⟨"dump", none⟩, ⟨"file", some file.display⟩]

/-- What is written about the image that an overlay is made on. -/
def backingItems (image : Path) : List Item := [⟨"backing_file", some image.display⟩]

theorem driveTokens_eq (plain : l.overlay = none) :
    l.driveTokens = ["-drive", ",".intercalate (l.driveItems.map Item.written)] := by
  simp only [driveTokens, plain, List.cons.injEq, true_and, and_true]
  rw [← String.toList_inj, String.toList_intercalate]
  simp [driveItems, Item.written, Item.text, List.intercalate]

theorem pcapTokens_eq {file : Path} (given : l.pcap = some file) :
    l.pcapTokens = ["-net", ",".intercalate ((captureItems file).map Item.written)] := by
  simp only [pcapTokens, given, List.cons.injEq, true_and, and_true]
  rw [← String.toList_inj, String.toList_intercalate]
  simp [captureItems, Item.written, Item.text, List.intercalate]

theorem written_backing (image : Path) :
    ",".intercalate ((backingItems image).map Item.written) = "backing_file=" ++ image.display := by
  rw [← String.toList_inj, toList_written]
  simp [backingItems, Item.text]

theorem overlayCommand_eq {overlay : Path} (given : l.overlay = some overlay) :
    l.overlayCommand = some ["qemu-img", "create", "-o",
      ",".intercalate ((backingItems l.image).map Item.written), "-f", "qcow2",
      overlay.display] := by
  rw [overlayCommand, given, Option.map_some, written_backing]
  rfl

theorem pcap_command {file : Path} (given : l.pcap = some file) :
    (l.command.drop (if l.overlay = none then 17 else 15)).take 2 = l.pcapTokens := by
  have hplace : (if l.overlay = none then 17 else 15)
      = 3 + (l.driveTokens.length + l.deviceTokens.length) := by
    rw [length_driveTokens, length_deviceTokens]
    split <;> rfl
  have htokens : l.pcapTokens.length = 2 := by
    rw [pcapTokens_eq l given]
    rfl
  rw [hplace, ← List.drop_drop, drop_command, ← List.drop_drop, List.drop_left, List.drop_left,
    middle]
  simp only [List.append_assoc]
  exact List.take_left' htokens

theorem items_drive_iff :
    items (",".intercalate (l.driveItems.map Item.written)) = l.driveItems
      ↔ ',' ∉ l.image.display.toList := by
  rw [items_written_iff (by simp [driveItems]) (by simp [driveItems])]
  have hinterface : ',' ∉ l.driveInterface.name.toList := by
    cases l.driveInterface <;> decide
  simp [driveItems, Item.text, hinterface]

theorem items_capture_iff (file : Path) :
    items (",".intercalate ((captureItems file).map Item.written)) = captureItems file
      ↔ ',' ∉ file.display.toList := by
  rw [items_written_iff (by simp [captureItems]) (by simp [captureItems])]
  simp [captureItems, Item.text]

theorem items_backing_iff (image : Path) :
    items (",".intercalate ((backingItems image).map Item.written)) = backingItems image
      ↔ ',' ∉ image.display.toList := by
  rw [items_written_iff (by simp [backingItems]) (by simp [backingItems])]
  simp [backingItems, Item.text]

end Launch

namespace Preparation

open OptionList Launch

theorem prepare_pcap {probe : Probe} {o : Options} {s t : Progress} {launch : Launch}
    (h : prepare probe o s = .ok launch t) : launch.pcap = o.pcap := by
  obtain ⟨-, _, _, _, _, _, -, -, -, hlast⟩ := prepare_ok h
  obtain ⟨_, _, -, rfl, -⟩ := complete_ok hlast
  rfl

/-- Nothing but a comma in the path that is named can add a field to an option list, drop or cut
one. -/
theorem option_lists_hold_iff (probe : Probe) (o : Options) (h : Host) {launch : Launch}
    (decided : (h.run (prepare probe o)).result = .ok launch) :
    (o.overlay = none → ∃ list, (launch.command.drop 3).take 2 = ["-drive", list] ∧
      (items list = [⟨"file", some launch.image.display⟩,
          ⟨"if", some launch.driveInterface.name⟩, ⟨"format", some "raw"⟩, ⟨"snapshot", some "on"⟩]
        ↔ ',' ∉ launch.image.display.toList)) ∧
    (∀ file, o.pcap = some file → ∃ list,
      (launch.command.drop (if o.overlay = none then 17 else 15)).take 2 = ["-net", list] ∧
      (items list = [⟨"dump", none⟩, ⟨"file", some file.display⟩] ↔ ',' ∉ file.display.toList)) ∧
    (∀ overlay, o.overlay = some overlay → ∃ list,
      launch.overlayCommand
        = some ["qemu-img", "create", "-o", list, "-f", "qcow2", overlay.display] ∧
      (items list = [⟨"backing_file", some launch.image.display⟩]
        ↔ ',' ∉ launch.image.display.toList)) := by
  obtain ⟨t, hend, -⟩ := Host.run_ok decided
  have hoverlay : launch.overlay = o.overlay := (prepare_realizes hend).overlay
  have hpcap : launch.pcap = o.pcap := prepare_pcap hend
  refine ⟨?drive, ?capture, ?backing⟩
  case drive =>
    intro plain
    refine ⟨_, ?_, launch.items_drive_iff⟩
    rw [drop_command, driveTokens_eq launch (hoverlay.trans plain)]
    rfl
  case capture =>
    intro file given
    refine ⟨_, ?_, items_capture_iff file⟩
    rw [← hoverlay, pcap_command launch (hpcap.trans given),
      pcapTokens_eq launch (hpcap.trans given)]
  case backing =>
    intro overlay given
    exact ⟨_, overlayCommand_eq launch (hoverlay.trans given), items_backing_iff launch.image⟩

end Preparation

namespace Sample

/-- The sample options without an overlay, and with a file to record the network in. -/
def recording : Options := { options with overlay := none, pcap := some (.ofString "/p") }

/-- A host with the deployment of a recipe whose name holds a comma. -/
def parted : Host :=
  host (files [rom, (place ["d", "m", "i,if=scsi-m.wic"], .file [2] false)] (by decide +kernel))

end Sample

namespace Preparation

open OptionList

theorem option_lists_hold_sample :
    ∃ launch list,
      (Sample.complete.run (prepare (.known false) Sample.recording)).result = .ok launch ∧
      (launch.command.drop 3).take 2 = ["-drive", list] ∧
      items list = [⟨"file", some "/d/m/i-m.wic"⟩, ⟨"if", some "ide"⟩, ⟨"format", some "raw"⟩,
        ⟨"snapshot", some "on"⟩] := by
  have hdecided : (Sample.complete.run (prepare (.known false) Sample.recording)).result
      = .ok (Sample.recording.launch "m" (.bios (.ofString "/d/m/u-boot-qemux86-64.rom"))
        (.ofString "/d/m/i-m.wic") (⟨0x52, 0x54, 0, 0, 0, 1⟩, none) 8990 2222 false) := by
    decide +kernel
  obtain ⟨hdrive, -, -⟩ := option_lists_hold_iff (.known false) Sample.recording Sample.complete
    hdecided
  obtain ⟨list, htokens, hread⟩ := hdrive rfl
  refine ⟨_, list, hdecided, htokens, ?_⟩
  simp only [Options.launch, Path.display_ofString] at hread
  exact hread.2 (by decide)

/-- A recipe whose name holds a comma cuts the path of its image short, and names another
interface. -/
theorem comma_adds_field :
    ∃ launch list,
      (Sample.parted.run
        (prepare (.known false) { Sample.recording with imageName := "i,if=scsi" })).result
          = .ok launch ∧
      launch.image.display = "/d/m/i,if=scsi-m.wic" ∧
      (launch.command.drop 3).take 2 = ["-drive", list] ∧
      items list = [⟨"file", some "/d/m/i"⟩, ⟨"if", some "scsi-m.wic"⟩, ⟨"if", some "ide"⟩,
        ⟨"format", some "raw"⟩, ⟨"snapshot", some "on"⟩] ∧
      items list ≠ [⟨"file", some launch.image.display⟩, ⟨"if", some launch.driveInterface.name⟩,
        ⟨"format", some "raw"⟩, ⟨"snapshot", some "on"⟩] := by
  have hdecided : (Sample.parted.run
      (prepare (.known false) { Sample.recording with imageName := "i,if=scsi" })).result
      = .ok (Sample.recording.launch "m" (.bios (.ofString "/d/m/u-boot-qemux86-64.rom"))
        (.ofString "/d/m/i,if=scsi-m.wic") (⟨0x52, 0x54, 0, 0, 0, 1⟩, none) 8990 2222 false) := by
    decide +kernel
  refine ⟨_, "file=/d/m/i,if=scsi-m.wic,if=ide,format=raw,snapshot=on", hdecided, ?_, ?_, ?_, ?_⟩
  · exact Path.display_ofString "/d/m/i,if=scsi-m.wic"
  · decide +kernel
  · decide +kernel
  · decide +kernel

end Preparation

end LaunchPlan
