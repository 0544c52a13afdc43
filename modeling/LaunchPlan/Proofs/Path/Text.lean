import LaunchPlan.Proofs.FileSystem.Absolute

/-!
Paths that are text. Main statements: `encode_display_iff`, to be shown as what it is a path has to
be text, `mem_encodeChars_iff`, bytes below 128 stand for characters only, so that a text is cut at
slashes into texts (`isText_of_mem_splitOn`), and `isText_settle`, a path that is text settles to
one where all entries have such names.
-/

namespace LaunchPlan

namespace Text

variable {bytes more : List UInt8} {b : UInt8} {c : Char} {cs : List Char}

/-- The bytes are those of characters. -/
def IsText (bytes : List UInt8) : Prop := ∃ cs, bytes = encodeChars cs

theorem isSome_decode?_iff : (decode? bytes).isSome = true ↔ IsText bytes := by
  rw [Option.isSome_iff_exists]
  constructor
  · rintro ⟨s, hs⟩
    exact ⟨s.toList, eq_encode_of_decode? hs⟩
  · rintro ⟨cs, rfl⟩
    have hread := decode?_encode (String.ofList cs)
    rw [encode, String.toList_ofList] at hread
    exact ⟨_, hread⟩

theorem isText_encode (s : String) : IsText (encode s) := ⟨s.toList, rfl⟩

theorem isText_nil : IsText [] := ⟨[], rfl⟩

theorem IsText.append (h : IsText bytes) (h' : IsText more) : IsText (bytes ++ more) := by
  obtain ⟨cs, rfl⟩ := h
  obtain ⟨ds, rfl⟩ := h'
  exact ⟨cs ++ ds, by simp [encodeChars]⟩

/-- What shows is what is there, exactly if that is text. -/
theorem encode_display_iff : encode (display bytes) = bytes ↔ IsText bytes := by
  constructor
  · intro hshown
    exact ⟨_, hshown.symm⟩
  · rintro ⟨cs, rfl⟩
    have hshown := display_encode (String.ofList cs)
    rw [encode, String.toList_ofList] at hshown
    rw [hshown, encode, String.toList_ofList]

theorem utf8EncodeChar_eq (c : Char) :
    String.utf8EncodeChar c =
      if c.toNat ≤ 127 then [UInt8.ofNat c.toNat]
      else if c.toNat ≤ 2047 then
        [UInt8.ofNat (c.toNat / 64 % 32 + 192), UInt8.ofNat (c.toNat % 64 + 128)]
      else if c.toNat ≤ 65535 then
        [UInt8.ofNat (c.toNat / 4096 % 16 + 224), UInt8.ofNat (c.toNat / 64 % 64 + 128),
          UInt8.ofNat (c.toNat % 64 + 128)]
      else
        [UInt8.ofNat (c.toNat / 262144 % 8 + 240), UInt8.ofNat (c.toNat / 4096 % 64 + 128),
          UInt8.ofNat (c.toNat / 64 % 64 + 128), UInt8.ofNat (c.toNat % 64 + 128)] := rfl

/-- A byte below 128 stands for the character of its number, and in no other one. -/
theorem mem_utf8EncodeChar_iff (low : b.toNat < 128) :
    b ∈ String.utf8EncodeChar c ↔ c.toNat = b.toNat := by
  rw [utf8EncodeChar_eq]
  split
  · next hc =>
    rw [List.mem_singleton, ← UInt8.toNat_inj, UInt8.toNat_ofNat']
    omega
  split
  · simp only [List.mem_cons, List.not_mem_nil, or_false, ← UInt8.toNat_inj, UInt8.toNat_ofNat']
    omega
  split
  · simp only [List.mem_cons, List.not_mem_nil, or_false, ← UInt8.toNat_inj, UInt8.toNat_ofNat']
    omega
  · simp only [List.mem_cons, List.not_mem_nil, or_false, ← UInt8.toNat_inj, UInt8.toNat_ofNat']
    omega

theorem mem_encodeChars_iff (low : b.toNat < 128) :
    b ∈ encodeChars cs ↔ ∃ c ∈ cs, c.toNat = b.toNat := by
  simp only [encodeChars, List.mem_flatMap, mem_utf8EncodeChar_iff low]

end Text

namespace Path

open Text

variable {p q base : Path} {names : List Name} {name : Name}

def IsText (p : Path) : Prop := Text.IsText p.bytes

theorem isSome_text?_iff : p.text?.isSome = true ↔ p.IsText := isSome_decode?_iff

theorem ofString_display_iff : ofString p.display = p ↔ p.IsText :=
  ⟨fun hread => encode_display_iff.1 (congrArg Path.bytes hread),
    fun htext => congrArg Path.mk (encode_display_iff.2 htext)⟩

theorem isText_ofString (s : String) : (ofString s).IsText := isText_encode s

/-- A text path shows a comma where its bytes have one. -/
theorem IsText.comma_mem_display_iff (hp : p.IsText) :
    ',' ∈ p.display.toList ↔ 0x2C ∈ p.bytes := by
  have hbytes : p.bytes = encodeChars p.display.toList := (encode_display_iff.2 hp).symm
  rw [hbytes, mem_encodeChars_iff (by decide)]
  constructor
  · intro hcomma
    exact ⟨',', hcomma, by decide⟩
  · rintro ⟨c, hc, hcode⟩
    obtain rfl : c = ',' := Char.toNat_inj.1 hcode
    exact hc

theorem isText_slash : Text.IsText [slash] := ⟨['/'], by decide⟩

theorem isText_flatMap (hnames : ∀ name ∈ names, Text.IsText name) :
    Text.IsText (names.flatMap (slash :: ·)) := by
  induction names with
  | nil => exact isText_nil
  | cons name rest ih =>
    rw [List.forall_mem_cons] at hnames
    rw [List.flatMap_cons]
    exact (isText_slash.append hnames.1).append (ih hnames.2)

theorem IsText.join (hp : p.IsText) (hq : q.IsText) : (p.join q).IsText := by
  unfold Path.join
  split
  · exact hq
  split
  · exact hp.append hq
  · exact hp.append (isText_slash.append hq)

theorem IsText.withSuffix (hp : p.IsText) (suffix : String) : (p.withSuffix suffix).IsText :=
  hp.append (isText_encode suffix)

theorem splitOn_append {front : List UInt8} (hslash : slash ∉ front) (bytes : List UInt8) :
    (front ++ bytes).splitOn slash = (bytes.splitOn slash).modifyHead (front ++ ·) := by
  induction front with
  | nil =>
    obtain ⟨first, rest, hsplit⟩ := List.exists_cons_of_ne_nil (List.splitOn_ne_nil slash bytes)
    simp [hsplit]
  | cons b front ih =>
    rw [List.mem_cons, not_or] at hslash
    obtain ⟨first, rest, hsplit, hcons⟩ := splitOn_cons_of_ne (Ne.symm hslash.1) (front ++ bytes)
    rw [ih hslash.2] at hsplit
    rw [List.cons_append, hcons]
    obtain ⟨first', rest', hsplit'⟩ := List.exists_cons_of_ne_nil (List.splitOn_ne_nil slash bytes)
    rw [hsplit', List.modifyHead_cons, List.cons.injEq] at hsplit
    rw [hsplit', List.modifyHead_cons, ← hsplit.1, hsplit.2]
    rfl

/-- Slashes cut a text into texts. -/
theorem isText_of_mem_splitOn {bytes segment : List UInt8} (h : Text.IsText bytes)
    (hsegment : segment ∈ bytes.splitOn slash) : Text.IsText segment := by
  obtain ⟨cs, rfl⟩ := h
  induction cs generalizing segment with
  | nil =>
    obtain rfl : segment = [] := by simpa [encodeChars] using hsegment
    exact isText_nil
  | cons c cs ih =>
    have hchar : Text.IsText (String.utf8EncodeChar c) := ⟨[c], by simp [encodeChars]⟩
    rw [encodeChars_cons] at hsegment
    by_cases hc : c.toNat = slash.toNat
    · obtain rfl : c = '/' := Char.toNat_inj.1 hc
      have hslash : String.utf8EncodeChar '/' = [slash] := by decide
      rw [hslash, List.singleton_append, splitOn_cons_slash, List.mem_cons] at hsegment
      rcases hsegment with rfl | hrest
      · exact isText_nil
      · exact ih hrest
    · have hslash : slash ∉ String.utf8EncodeChar c := by
        rwa [mem_utf8EncodeChar_iff (by decide)]
      obtain ⟨first, rest, hsplit⟩ :=
        List.exists_cons_of_ne_nil (List.splitOn_ne_nil slash (encodeChars cs))
      rw [splitOn_append hslash, hsplit, List.modifyHead_cons, List.mem_cons] at hsegment
      rcases hsegment with rfl | hrest
      · exact hchar.append (ih (by rw [hsplit]; exact List.mem_cons_self))
      · exact ih (by rw [hsplit]; exact List.mem_cons_of_mem _ hrest)

theorem IsText.of_mem_names (hp : p.IsText) (hname : name ∈ p.names) : Text.IsText name :=
  isText_of_mem_splitOn hp (List.mem_filter.1 hname).1

theorem IsText.extend (hp : p.IsText) (hnames : ∀ name ∈ names, Text.IsText name) :
    (p.extend names).IsText := by
  induction names generalizing p with
  | nil => exact hp
  | cons name rest ih =>
    exact ih (hp.join (hnames name List.mem_cons_self))
      fun other hother => hnames other (List.mem_cons_of_mem _ hother)

theorem IsText.anchor (hbase : base.IsText) (p : Path) : (p.anchor base).IsText := by
  unfold Path.anchor
  split
  · exact isText_ofString "//"
  split
  · exact isText_ofString "/"
  · exact hbase

theorem IsText.absoluteFrom (hp : p.IsText) (hbase : base.IsText) : (p.absoluteFrom base).IsText := by
  have hwhole : ((p.anchor base).extend (p.names.filter (· ≠ dot))).IsText :=
    (hbase.anchor p).extend fun name hname => hp.of_mem_names (List.mem_filter.1 hname).1
  rw [absoluteFrom_eq]
  simp only
  split
  · exact hwhole.join isText_nil
  · exact hwhole

end Path

/-- The path of a place is text, if all names on the way there are. -/
theorem Location.isText_path {place : Location} {p : Path} (path : place.path? = some p)
    (names : ∀ name ∈ place, Text.IsText name) : p.IsText := by
  by_cases hne : place = []
  · subst hne
    cases path
    exact Path.isText_ofString "/"
  · rw [Path.IsText, bytes_path path hne]
    exact Path.isText_flatMap fun name hname => names name (List.mem_reverse.1 hname)

namespace FileSystem

variable {fs : FileSystem} {cwd : Location} {p q : Path}

/-- All names on the way to an entry, or to the working directory, are text. -/
structure HasTextNames (fs : FileSystem) (cwd : Location) : Prop where
  entries : ∀ place, (fs.get? place).isSome = true → ∀ name ∈ place, Text.IsText name
  cwd : ∀ name ∈ cwd, Text.IsText name

theorem isText_canonical (names : fs.HasTextNames cwd) (h : fs.canonical cwd p = .ok q) :
    q.IsText := by
  obtain ⟨place, hend, hpath⟩ := place_of_canonical h
  obtain ⟨entry, hentry, -⟩ := hend.entry
  exact Location.isText_path hpath (names.entries place (by rw [hentry]; rfl))

theorem isText_absolute (names : fs.HasTextNames cwd) (text : p.IsText)
    (h : absolute cwd p = .ok q) : q.IsText := by
  obtain ⟨-, base, hpath, rfl⟩ := absolute_eq_ok_iff.1 h
  apply text.absoluteFrom (Location.isText_path hpath _)
  unfold startOf
  split
  · simp
  · exact names.cwd

theorem isText_settle (names : fs.HasTextNames cwd) (text : p.IsText)
    (h : fs.settle cwd p = .ok q) : q.IsText := by
  unfold settle at h
  split at h
  · exact isText_canonical names h
  · exact isText_absolute names text h

end FileSystem

namespace Deployment

variable {d : Deployment}

theorem isText_machineDirectory (text : d.directory.IsText) : d.machineDirectory.IsText :=
  text.join (Path.isText_ofString _)

theorem isText_bootloader (text : d.directory.IsText) : d.bootloader.IsText :=
  (isText_machineDirectory text).join (Path.isText_ofString _)

theorem isText_kernel (text : d.directory.IsText) : d.kernel.IsText :=
  (isText_machineDirectory text).join (Path.isText_ofString _)

theorem isText_image (text : d.directory.IsText) (recipe extension : String) :
    (d.image recipe extension).IsText :=
  (isText_machineDirectory text).join (Path.isText_ofString _)

end Deployment

end LaunchPlan
