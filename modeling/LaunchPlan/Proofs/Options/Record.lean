import LaunchPlan.Options.Record
import LaunchPlan.Proofs.Network.Spelling

/-!
Options as data, written and read back. Main statements: `ofData_object_iff`, which options an
object gives, said field by field and without an order, and `data_round_trip`, options are read back
from what is written of them, and reading does not depend on how much of the defaults is spelled out.
-/

namespace LaunchPlan.Options

/-- The options with one field taken from others. -/
def take (p o : Options) : Field → Options
  | .machine => { p with machine := o.machine }
  | .dir => { p with dir := o.dir }
  | .imageName => { p with imageName := o.imageName }
  | .efi => { p with efi := o.efi }
  | .uboot => { p with uboot := o.uboot }
  | .bootloader => { p with bootloader := o.bootloader }
  | .overlay => { p with overlay := o.overlay }
  | .mem => { p with mem := o.mem }
  | .mac => { p with mac := o.mac }
  | .kvm => { p with kvm := o.kvm }
  | .noGui => { p with noGui := o.noGui }
  | .gdb => { p with gdb := o.gdb }
  | .pcap => { p with pcap := o.pcap }
  | .secondaryNetwork => { p with secondaryNetwork := o.secondaryNetwork }
  | .hostForward => { p with hostForward := o.hostForward }
  | .dryRun => { p with dryRun := o.dryRun }

variable {o p q : Options} {r : Reading} {f g : Field} {value : Data} {name : String}
  {fields rest more : List (String × Data)} {seen : List Field}

theorem take_self (o : Options) (f : Field) : o.take o f = o := by
  cases f <;> rfl

theorem take_take (o p q : Options) (f : Field) : o.take (p.take q f) f = o.take q f := by
  cases f <;> rfl

theorem take_take_of_ne (o p q : Options) (h : g ≠ f) : o.take (p.take q f) g = o.take p g := by
  cases f <;> cases g <;> first | rfl | exact absurd rfl h

theorem eq_of_take (same : ∀ f, o.take p f = o) : o = p := by
  obtain ⟨_, _, _, _, _, _, _, _, _, _, _, _, _, _, _, _⟩ := o
  obtain ⟨_, _, _, _, _, _, _, _, _, _, _, _, _, _, _, _⟩ := p
  have hall : ∀ f ∈ Field.all, _ := fun f _ => same f
  simp only [Field.all, List.forall_mem_cons, take, Options.mk.injEq, and_true, true_and] at hall
  simp [hall]

theorem get_take (p o : Options) (f : Field) : (p.take o f).get f = o.get f := by
  cases f <;> rfl

/-- What is set in a field does not depend on the options it is set in. -/
theorem set_eq (p : Options) (r : Reading) (f : Field) :
    p.set r f = (default.set r f).map fun q => p.take q f := by
  cases f with
  | machine | mem | hostForward => simp only [set]; cases r.optional Reading.toText <;> rfl
  | bootloader | overlay | pcap => simp only [set]; cases r.optional Reading.toPath <;> rfl
  | mac => simp only [set]; cases r.optional Reading.toMac <;> rfl
  | kvm => simp only [set]; cases r.optional Reading.toFlag <;> rfl
  | dir => simp only [set]; cases r.toPath <;> rfl
  | imageName => simp only [set]; cases r.toText <;> rfl
  | efi | uboot | noGui | gdb | secondaryNetwork | dryRun =>
    simp only [set]; cases r.toFlag <;> rfl

theorem set_ok_iff : p.set r f = .ok q ↔ ∃ v, default.set r f = .ok v ∧ p.take v f = q := by
  rw [set_eq]
  cases default.set r f <;> simp [Except.map]

/-- A value that leaves options as they are in one field gives that field to any others. -/
theorem set_of_fixed (fixed : o.set r f = .ok o) (p : Options) : p.set r f = .ok (p.take o f) := by
  obtain ⟨v, hv, hsame⟩ := set_ok_iff.1 fixed
  refine set_ok_iff.2 ⟨v, hv, ?_⟩
  rw [← hsame, take_take]

theorem take_of_set (h : p.set r f = .ok q) : q = p.take q f := by
  obtain ⟨v, -, rfl⟩ := set_ok_iff.1 h
  rw [take_take]

theorem set_again (h : p.set r f = .ok q) (same : o.take q f = o) : o.set r f = .ok o := by
  obtain ⟨v, hv, rfl⟩ := set_ok_iff.1 h
  rw [take_take] at same
  exact set_ok_iff.2 ⟨v, hv, same⟩

/-- The fields that an object names, in its order. -/
def named (fields : List (String × Data)) : List Field :=
  (fields.map Prod.fst).filterMap Field.ofName?

theorem mem_named : f ∈ named fields ↔ ∃ name value, (name, value) ∈ fields ∧
    Field.ofName? name = some f := by
  simp [named]

/-- An object makes options of others: each field that it names stands in it once and is as its
value is read, and the other fields are left as they are. -/
structure Gives (fields : List (String × Data)) (p o : Options) : Prop where
  once : (named fields).Nodup
  given : ∀ name value f, (name, value) ∈ fields → Field.ofName? name = some f →
    o.set value.reading f = .ok o
  left : ∀ f, f ∉ named fields → o.take p f = o

theorem named_cons_unknown (unknown : Field.ofName? name = none) :
    named ((name, value) :: rest) = named rest := by
  simp [named, unknown]

theorem named_cons_known (known : Field.ofName? name = some f) :
    named ((name, value) :: rest) = f :: named rest := by
  simp [named, known]

theorem gives_nil_iff : Gives [] p o ↔ p = o := by
  constructor
  · intro hgives
    exact (eq_of_take fun f => hgives.left f List.not_mem_nil).symm
  · rintro rfl
    exact ⟨List.nodup_nil, fun _ _ _ hmem => absurd hmem List.not_mem_nil,
      fun f _ => take_self p f⟩

theorem gives_cons_unknown (unknown : Field.ofName? name = none) :
    Gives ((name, value) :: rest) p o ↔ Gives rest p o := by
  constructor
  · intro hgives
    obtain ⟨honce, hgiven, hleft⟩ := hgives
    rw [named_cons_unknown unknown] at honce hleft
    exact ⟨honce, fun _ _ _ hmem => hgiven _ _ _ (List.mem_cons_of_mem _ hmem), hleft⟩
  · intro hgives
    refine ⟨?_, ?_, ?_⟩
    · rw [named_cons_unknown unknown]
      exact hgives.once
    · intro name' value' f hmem hknown
      rcases List.mem_cons.1 hmem with heq | hrest
      · cases heq
        cases unknown.symm.trans hknown
      · exact hgives.given _ _ _ hrest hknown
    · rw [named_cons_unknown unknown]
      exact hgives.left

/-- The first field of an object can be set first, since no other one is the same. -/
theorem gives_cons_known (known : Field.ofName? name = some f) :
    Gives ((name, value) :: rest) p o ↔
      f ∉ named rest ∧ ∃ q, p.set value.reading f = .ok q ∧ Gives rest q o := by
  constructor
  · intro hgives
    obtain ⟨honce, hgiven, hleft⟩ := hgives
    rw [named_cons_known known] at honce hleft
    obtain ⟨hfresh, honce⟩ := List.nodup_cons.1 honce
    have hfixed := hgiven name value f List.mem_cons_self known
    refine ⟨hfresh, _, set_of_fixed hfixed p, honce, ?_, ?_⟩
    · intro _ _ _ hmem
      exact hgiven _ _ _ (List.mem_cons_of_mem _ hmem)
    · intro g hg
      by_cases heq : g = f
      · rw [heq, take_take, take_self]
      · rw [take_take_of_ne _ _ _ heq]
        exact hleft g (by simp [heq, hg])
  · rintro ⟨hfresh, q, hset, hgives⟩
    refine ⟨?_, ?_, ?_⟩
    · rw [named_cons_known known]
      exact List.nodup_cons.2 ⟨hfresh, hgives.once⟩
    · intro name' value' g hmem hknown
      rcases List.mem_cons.1 hmem with heq | hrest
      · cases heq
        cases known.symm.trans hknown
        exact set_again hset (hgives.left f hfresh)
      · exact hgives.given _ _ _ hrest hknown
    · intro g hg
      rw [named_cons_known known, List.mem_cons, not_or] at hg
      have hsame := hgives.left g hg.2
      rwa [take_of_set hset, take_take_of_ne _ _ _ hg.1] at hsame

theorem setNamed_ok_iff : p.setNamed seen fields = .ok o ↔
    Gives fields p o ∧ ∀ f ∈ named fields, f ∉ seen := by
  induction fields generalizing p seen with
  | nil => simp [setNamed, gives_nil_iff, named]
  | cons head rest ih =>
    obtain ⟨name, value⟩ := head
    rw [setNamed]
    cases known : Field.ofName? name with
    | none => simp only [ih, gives_cons_unknown known, named_cons_unknown known]
    | some f =>
      rw [gives_cons_known known, named_cons_known known]
      by_cases hseen : f ∈ seen
      · simp [hseen]
      · have hbind : (do setNamed (← p.set value.reading f) (f :: seen) rest) = .ok o ↔
            ∃ q, p.set value.reading f = .ok q ∧ setNamed q (f :: seen) rest = .ok o := by
          cases p.set value.reading f <;> simp [bind, Except.bind]
        simp only [hseen, if_false, hbind, ih, List.mem_cons, not_or]
        constructor
        · rintro ⟨q, hset, hgives, hfresh⟩
          refine ⟨⟨fun hf => (hfresh f hf).1 rfl, q, hset, hgives⟩, ?_⟩
          rintro g (rfl | hg)
          · exact hseen
          · exact (hfresh g hg).2
        · rintro ⟨⟨hf, q, hset, hgives⟩, hfresh⟩
          refine ⟨q, hset, hgives, fun g hg => ⟨?_, hfresh g (.inr hg)⟩⟩
          rintro rfl
          exact hf hg

/-- Which options an object gives does not depend on the order of its fields. -/
theorem ofData_object_iff : ofData (.object fields) = .ok o ↔ Gives fields default o := by
  rw [ofData, setNamed_ok_iff]
  simp

theorem named_perm (same : fields.Perm more) : (named fields).Perm (named more) :=
  (same.map Prod.fst).filterMap Field.ofName?

theorem Gives.perm (gives : Gives fields p o) (same : fields.Perm more) : Gives more p o where
  once := (named_perm same).nodup_iff.1 gives.once
  given _ _ _ hmem := gives.given _ _ _ (same.mem_iff.2 hmem)
  left f hf := gives.left f fun hmem => hf ((named_perm same).mem_iff.1 hmem)

theorem Gives.extend (gives : Gives fields p o)
    (unknown : ∀ field ∈ more, Field.ofName? field.1 = none) : Gives (more ++ fields) p o := by
  induction more with
  | nil => exact gives
  | cons head more ih =>
    obtain ⟨hhead, hmore⟩ := List.forall_mem_cons.1 unknown
    exact (gives_cons_unknown hhead).2 (ih hmore)

/-- A field can be left out if its value is what the options have without it. -/
theorem Gives.drop (gives : Gives ((name, value) :: rest) p o) (known : Field.ofName? name = some f)
    (idle : p.set value.reading f = .ok p) : Gives rest p o := by
  obtain ⟨-, q, hset, hgives⟩ := (gives_cons_known known).1 gives
  rw [idle, Except.ok.injEq] at hset
  rwa [hset]

/-! Each value that is written is read as what it was written of. -/

theorem toPath_pathData {path : Path} (h : pathData path = some value) :
    value.reading.toPath = .ok path := by
  obtain ⟨s, hs, rfl⟩ := Option.map_eq_some_iff.1 h
  rw [Path.eq_ofString_of_text? hs]
  rfl

theorem optional_optionalPathData {x : Option Path} (h : optionalPathData x = some value) :
    value.reading.optional Reading.toPath = .ok x := by
  cases x with
  | none =>
    cases h
    rfl
  | some path =>
    have hback := toPath_pathData h
    obtain ⟨s, -, rfl⟩ := Option.map_eq_some_iff.1 h
    calc (Data.text s).reading.optional Reading.toPath
        = (Data.text s).reading.toPath.map some := rfl
      _ = .ok (some path) := by rw [hback]; rfl

theorem optional_optionalData {α : Type} (write : α → Data)
    (read : Reading → Except OptionsFault α) (present : ∀ a, (write a).reading.absent = some false)
    (back : ∀ a, read (write a).reading = .ok a) (x : Option α) :
    (optionalData write x).reading.optional read = .ok x := by
  cases x with
  | none => rfl
  | some a => simp [optionalData, Reading.optional, present, back, Except.map]

theorem optional_text (x : Option String) :
    (optionalData .text x).reading.optional Reading.toText = .ok x :=
  optional_optionalData .text Reading.toText (fun _ => rfl) (fun _ => rfl) x

theorem optional_flag (x : Option Bool) :
    (optionalData .flag x).reading.optional Reading.toFlag = .ok x :=
  optional_optionalData .flag Reading.toFlag (fun _ => rfl) (fun _ => rfl) x

theorem toMac_text {s : String} {m : MacAddress} :
    (Data.text s).reading.toMac = .ok m ↔ MacAddress.parse? s = some m := by
  have htext : (Data.text s).reading.toText = .ok s := rfl
  cases hread : MacAddress.parse? s <;> simp [Reading.toMac, htext, hread, bind, Except.bind]

theorem optional_mac (x : Option MacAddress) :
    (optionalData (fun m => .text m.render) x).reading.optional Reading.toMac = .ok x := by
  apply optional_optionalData
  · intro m
    rfl
  · intro m
    exact toMac_text.2 (MacAddress.parse?_render m)

theorem set_get (h : o.get f = some value) : o.set value.reading f = .ok o := by
  cases f with
  | dir =>
    simp only [set, toPath_pathData h]
    rfl
  | bootloader | overlay | pcap =>
    simp only [set, optional_optionalPathData h]
    rfl
  | imageName | efi | uboot | noGui | gdb | secondaryNetwork | dryRun =>
    cases h
    rfl
  | mem | hostForward =>
    cases h
    simp only [set, optional_text]
    rfl
  | machine =>
    cases h
    simp only [set, optional_text]
    show Except.ok { o with machine := .ofOption o.machine.toOption } = _
    rw [Setting.ofOption_toOption]
  | mac =>
    cases h
    simp only [set, optional_mac]
    show Except.ok { o with mac := .ofOption o.mac.toOption } = _
    rw [Setting.ofOption_toOption]
  | kvm =>
    cases h
    simp only [set, optional_flag]
    show Except.ok { o with kvm := .ofOption o.kvm.toOption } = _
    rw [Setting.ofOption_toOption]

/-- All paths of the options are text. -/
structure HasTextPaths (o : Options) : Prop where
  dir : o.dir.text?.isSome
  bootloader : ∀ path ∈ o.bootloader, path.text?.isSome
  overlay : ∀ path ∈ o.overlay, path.text?.isSome
  pcap : ∀ path ∈ o.pcap, path.text?.isSome

theorem isSome_optionalPathData {x : Option Path} :
    (optionalPathData x).isSome ↔ ∀ path ∈ x, path.text?.isSome := by
  cases x with
  | none => simp [optionalPathData]
  | some path => simp [optionalPathData, pathData]

/-- Paths are all that can keep a field from being written. -/
theorem hasTextPaths_iff : o.HasTextPaths ↔ ∀ f, (o.get f).isSome := by
  constructor
  · intro htext f
    cases f with
    | dir => simpa [get, pathData] using htext.dir
    | bootloader => exact isSome_optionalPathData.2 htext.bootloader
    | overlay => exact isSome_optionalPathData.2 htext.overlay
    | pcap => exact isSome_optionalPathData.2 htext.pcap
    | machine | imageName | efi | uboot | mem | mac | kvm | noGui | gdb | secondaryNetwork
    | hostForward | dryRun => rfl
  · intro hall
    refine ⟨?_, ?_, ?_, ?_⟩
    · simpa [get, pathData] using hall .dir
    · exact isSome_optionalPathData.1 (hall .bootloader)
    · exact isSome_optionalPathData.1 (hall .overlay)
    · exact isSome_optionalPathData.1 (hall .pcap)

theorem mapM_eq_some_iff {α β : Type} {f : α → Option β} {as : List α} {bs : List β} :
    as.mapM f = some bs ↔ as.map f = bs.map some := by
  induction as generalizing bs with
  | nil => cases bs <;> simp
  | cons a as ih =>
    rw [List.mapM_cons]
    simp only [Option.bind_eq_bind, Option.bind_eq_some_iff, Option.pure_def, Option.some.injEq, ih]
    constructor
    · rintro ⟨b, ha, bs, has, rfl⟩
      rw [List.map_cons, List.map_cons, ha, has]
    · intro h
      cases bs with
      | nil => cases h
      | cons b bs =>
        obtain ⟨ha, has⟩ := List.cons.inj h
        exact ⟨b, ha, bs, has, rfl⟩

theorem toData?_eq_some_iff {d : Data} : o.toData? = some d ↔ ∃ written, d = .object written ∧
    (Field.all.map fun f => (o.get f).map fun value => (f.name, value)) = written.map some := by
  unfold toData?
  rw [Option.map_eq_some_iff]
  constructor
  · rintro ⟨written, hwritten, rfl⟩
    exact ⟨written, rfl, mapM_eq_some_iff.1 hwritten⟩
  · rintro ⟨written, rfl, hwritten⟩
    exact ⟨written, mapM_eq_some_iff.2 hwritten, rfl⟩

theorem mem_all (f : Field) : f ∈ Field.all := by
  cases f <;> decide

theorem hasTextPaths_of_toData? {d : Data} (h : o.toData? = some d) : o.HasTextPaths := by
  obtain ⟨written, -, hwritten⟩ := toData?_eq_some_iff.1 h
  refine hasTextPaths_iff.2 fun f => ?_
  have hmem : (o.get f).map (fun value => (f.name, value)) ∈ written.map some := by
    rw [← hwritten]
    exact List.mem_map_of_mem (mem_all f)
  obtain ⟨field, -, hfield⟩ := List.mem_map.1 hmem
  obtain ⟨value, hvalue, -⟩ := Option.map_eq_some_iff.1 hfield.symm
  simp [hvalue]

/-- Every field is written, each under its name and in the order of declaration. -/
theorem HasTextPaths.written (text : o.HasTextPaths) : ∃ written,
    o.toData? = some (.object written) ∧ written.map Prod.fst = Field.all.map Field.name ∧
      ∀ name value, (name, value) ∈ written ↔ ∃ f, f.name = name ∧ o.get f = some value := by
  have hsome := hasTextPaths_iff.1 text
  refine ⟨Field.all.map fun f => (f.name, (o.get f).get (hsome f)), ?_, ?_, ?_⟩
  · refine toData?_eq_some_iff.2 ⟨_, rfl, ?_⟩
    rw [List.map_map]
    apply List.map_congr_left
    intro f _
    obtain ⟨value, hvalue⟩ := Option.isSome_iff_exists.1 (hsome f)
    simp [hvalue]
  · rw [List.map_map]
    rfl
  · intro name value
    simp only [List.mem_map, Prod.mk.injEq]
    constructor
    · rintro ⟨f, -, rfl, rfl⟩
      exact ⟨f, rfl, by simp⟩
    · rintro ⟨f, rfl, hvalue⟩
      exact ⟨f, mem_all f, rfl, by simp [hvalue]⟩

theorem named_of_names (names : fields.map Prod.fst = Field.all.map Field.name) :
    named fields = Field.all := by
  rw [named, names]
  decide

/-- Options are read back from what is written of them. -/
theorem ofData_toData? {d : Data} (h : o.toData? = some d) : ofData d = .ok o := by
  obtain ⟨written, hwritten, hnames, hfields⟩ := (hasTextPaths_of_toData? h).written
  cases h.symm.trans hwritten
  have hnamed := named_of_names hnames
  refine ofData_object_iff.2 ⟨?_, ?_, ?_⟩
  · rw [hnamed]
    decide
  · intro name value f hmem hknown
    obtain ⟨g, rfl, hvalue⟩ := (hfields name value).1 hmem
    cases (Field.ofName?_name g).symm.trans hknown
    exact set_get hvalue
  · intro f hf
    rw [hnamed] at hf
    exact absurd (mem_all f) hf

theorem isText_of_toPath {path : Path} (h : r.toPath = .ok path) : path.text?.isSome := by
  unfold Reading.toPath at h
  cases hread : r.toText with
  | error fault =>
    rw [hread] at h
    cases h
  | ok s =>
    rw [hread] at h
    cases h
    rw [Path.text?_ofString]
    rfl

theorem isText_of_optional {x : Option Path} (h : r.optional Reading.toPath = .ok x) :
    ∀ path ∈ x, path.text?.isSome := by
  intro path hpath
  cases hpath
  unfold Reading.optional at h
  split at h
  · cases h
  · cases hread : r.toPath with
    | error fault =>
      rw [hread] at h
      cases h
    | ok other =>
      rw [hread] at h
      cases h
      exact isText_of_toPath hread
  · cases h

/-- A path that was read is text, so what was read can be written. -/
theorem isSome_get_of_set (h : p.set r f = .ok q) : (q.get f).isSome := by
  have optional {x : Option Path} (hread : r.optional Reading.toPath = .ok x) :=
    isSome_optionalPathData.2 (isText_of_optional hread)
  cases f with
  | dir =>
    simp only [set] at h
    cases hread : r.toPath with
    | error fault => simp [hread, bind, Except.bind] at h
    | ok path =>
      rw [hread] at h
      cases h
      simpa [get, pathData] using isText_of_toPath hread
  | bootloader | overlay | pcap =>
    simp only [set] at h
    cases hread : r.optional Reading.toPath with
    | error fault => simp [hread, bind, Except.bind] at h
    | ok x =>
      rw [hread] at h
      cases h
      exact optional hread
  | machine | imageName | efi | uboot | mem | mac | kvm | noGui | gdb | secondaryNetwork
  | hostForward | dryRun => rfl

theorem Gives.hasTextPaths (gives : Gives fields p o) (text : p.HasTextPaths) :
    o.HasTextPaths := by
  refine hasTextPaths_iff.2 fun f => ?_
  by_cases hf : f ∈ named fields
  · obtain ⟨name, value, hmem, hknown⟩ := mem_named.1 hf
    exact isSome_get_of_set (gives.given name value f hmem hknown)
  · rw [← gives.left f hf, get_take]
    exact hasTextPaths_iff.1 text f

theorem hasTextPaths_default : default.HasTextPaths := by
  refine ⟨?_, by simp [default], by simp [default], by simp [default]⟩
  rw [default, Path.text?_ofString]
  rfl

/-- An address that is read from a text is written as that text in small letters. -/
theorem get_mac_of_set {s : String} (h : o.set (Data.text s).reading .mac = .ok o) :
    o.get .mac = some (.text s.toLower) := by
  have hoptional : (Data.text s).reading.optional Reading.toMac
      = (Data.text s).reading.toMac.map some := rfl
  simp only [set, hoptional] at h
  cases hread : (Data.text s).reading.toMac with
  | error fault => simp [hread, Except.map, bind, Except.bind] at h
  | ok m =>
    rw [hread] at h
    have hmac : .given m = o.mac := congrArg Options.mac (Except.ok.inj h)
    rw [get, ← hmac, ← MacAddress.render_of_parse? (toMac_text.1 hread)]
    rfl

/-- Options whose paths are text are written as data, and read back from it. Options that an object
gives are written as an object with all fields, the address in small letters; they are given again by
that object, and by any with the same fields in any order, less fields with the default's value or a
null where detection is meant, or with more fields of other names. -/
theorem data_round_trip :
    (∀ o : Options, o.HasTextPaths ↔ ∃ d, o.toData? = some d) ∧
    (∀ (o : Options) (d : Data), o.toData? = some d → ofData d = .ok o) ∧
    ∀ (fields : List (String × Data)) (o : Options), ofData (.object fields) = .ok o →
      (∃ written, o.toData? = some (.object written) ∧
        written.map Prod.fst = Field.all.map Field.name ∧ ofData (.object written) = .ok o ∧
        ∀ s, (Field.mac.name, .text s) ∈ fields → (Field.mac.name, .text s.toLower) ∈ written) ∧
      (∀ name value f rest, fields.Perm ((name, value) :: rest) → Field.ofName? name = some f →
        default.set value.reading f = .ok default → ofData (.object rest) = .ok o) ∧
      (∀ f ∈ [Field.machine, .mac, .kvm], ∀ rest, fields.Perm ((f.name, .null) :: rest) →
        ofData (.object rest) = .ok o) ∧
      ∀ more all, (∀ field ∈ more, Field.ofName? field.1 = none) → all.Perm (more ++ fields) →
        ofData (.object all) = .ok o := by
  refine ⟨?_, ?_, ?_⟩
  · intro o
    constructor
    · intro htext
      obtain ⟨written, hwritten, -⟩ := htext.written
      exact ⟨_, hwritten⟩
    · rintro ⟨d, hd⟩
      exact hasTextPaths_of_toData? hd
  · intro o d
    exact ofData_toData?
  · intro fields o hread
    have hgives := ofData_object_iff.1 hread
    have hdrop : ∀ name value f rest, fields.Perm ((name, value) :: rest) →
        Field.ofName? name = some f → default.set value.reading f = .ok default →
        ofData (.object rest) = .ok o := by
      intro name value f rest hperm hknown hidle
      exact ofData_object_iff.2 ((hgives.perm hperm).drop hknown hidle)
    refine ⟨?_, hdrop, ?_, ?_⟩
    · obtain ⟨written, hwritten, hnames, hfields⟩ := (hgives.hasTextPaths hasTextPaths_default).written
      refine ⟨written, hwritten, hnames, ofData_toData? hwritten, ?_⟩
      intro s hs
      have hset := hgives.given _ _ _ hs (Field.ofName?_name .mac)
      exact (hfields _ _).2 ⟨.mac, rfl, get_mac_of_set hset⟩
    · intro f hf rest hperm
      have hidle : ∀ g ∈ [Field.machine, .mac, .kvm],
          default.set Data.null.reading g = .ok default := by
        intro g hg
        simp only [List.mem_cons, List.not_mem_nil, or_false] at hg
        rcases hg with rfl | rfl | rfl <;> rfl
      exact hdrop f.name .null f rest hperm (Field.ofName?_name f) (hidle f hf)
    · intro more all hunknown hperm
      exact ofData_object_iff.2 ((hgives.extend hunknown).perm hperm.symm)

/-- An object with a null, an address in capitals and a default: either can be left out, and a
field of another name added. -/
theorem data_round_trip_sample :
    let o := { default with mac := .given ⟨0xCA, 0xFE, 0x00, 0x1A, 0xBC, 0xFF⟩ }
    let mac : String × Data := ("mac", .text "CA:FE:00:1A:BC:FF")
    ofData (.object [("kvm", .null), mac, ("uboot", .flag true)]) = .ok o ∧
      ofData (.object [mac, ("uboot", .flag true)]) = .ok o ∧
      ofData (.object [("kvm", .null), mac]) = .ok o ∧
      ofData (.object [("color", .number), ("kvm", .null), mac, ("uboot", .flag true)]) = .ok o ∧
      ∃ written, o.toData? = some (.object written) ∧
        ("mac", .text "ca:fe:00:1a:bc:ff") ∈ written := by
  intro o mac
  have hread : ofData (.object [("kvm", .null), mac, ("uboot", .flag true)]) = .ok o := rfl
  obtain ⟨⟨written, hwritten, -, -, hmac⟩, hdrop, hnull, hmore⟩ := data_round_trip.2.2 _ o hread
  have hsmall : "CA:FE:00:1A:BC:FF".toLower = "ca:fe:00:1a:bc:ff" := by decide +kernel
  refine ⟨hread, ?_, ?_, ?_, written, hwritten, hsmall ▸ hmac _ (by simp [mac, Field.name])⟩
  · exact hnull .kvm (by simp) _ (.refl _)
  · exact hdrop "uboot" (.flag true) .uboot _ (@List.perm_append_comm _ [_, _] [_]) rfl rfl
  · exact hmore [("color", .number)] _ (by decide) (.refl _)

end LaunchPlan.Options
