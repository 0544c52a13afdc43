import LaunchPlan.Machine
import LaunchPlan.Proofs.Path.Segments

/-!
Paths made absolute by their spelling. Main statements: `names_absoluteFrom`, such a path goes
through the names of its base and then through its own ones but for the dots, and
`EndsIn.absoluteFrom`, it ends in the name that it ended in. That the paths of a deployment end in
names is `Deployment.bootloader_endsIn` and its siblings.
-/

namespace LaunchPlan

namespace Path

variable {p q : Path} {folder : List Name} {name : Name}

theorem slash_notMem_of_mem_names (h : name ∈ p.names) : slash ∉ name :=
  (mem_of_mem_splitOn (List.mem_filter.1 h).1).1

theorem nonempty_of_mem_names (h : name ∈ p.names) : name ≠ [] := by
  simpa using (List.mem_filter.1 h).2

theorem names_append_slash (front back : List UInt8) :
    names ⟨front ++ slash :: back⟩ = names ⟨front⟩ ++ names ⟨back⟩ := by
  simp [names, segments, List.splitOn_append_cons_self]

@[simp] theorem names_empty : empty.names = [] := by decide

theorem names_of_name (hne : name ≠ []) (hslash : slash ∉ name) : names ⟨name⟩ = [name] := by
  simp [names, segments, List.splitOn_eq_singleton hslash, hne]

theorem names_join (p : Path) (relative : q.isAbsolute = false) :
    (p.join q).names = p.names ++ q.names := by
  unfold join
  rw [if_neg (by simp [relative])]
  split
  · next hends =>
    rcases hends with hempty | hslash
    · rw [hempty, List.nil_append]
      obtain rfl : p = empty := congrArg Path.mk hempty
      simp
    · obtain ⟨front, hfront⟩ := List.getLast?_eq_some_iff.1 (of_decide_eq_true hslash)
      have hp : p.names = names ⟨front⟩ := by
        have hnames := names_append_slash front []
        rw [← hfront] at hnames
        exact hnames.trans (by simp [names, segments])
      rw [hp, hfront, List.append_assoc]
      exact names_append_slash front q.bytes
  · exact names_append_slash p.bytes q.bytes

theorem isAbsolute_of_notMem (hslash : slash ∉ name) : isAbsolute ⟨name⟩ = false := by
  unfold isAbsolute
  rw [decide_eq_false_iff_not]
  exact fun hhead => hslash (List.mem_of_head? hhead)

theorem not_endsInSlash_join (p : Path) (hne : name ≠ []) (hslash : slash ∉ name) :
    (p.join ⟨name⟩).endsInSlash = false := by
  unfold join
  rw [if_neg (by simp [isAbsolute_of_notMem hslash])]
  split
  · exact not_endsInSlash_append p.bytes hslash hne
  · have hbytes : p.bytes ++ slash :: name = (p.bytes ++ [slash]) ++ name := by simp
    rw [hbytes]
    exact not_endsInSlash_append (p.bytes ++ [slash]) hslash hne

/-- A path with names put after it, one after the other. -/
def extend (p : Path) (names : List Name) : Path := names.foldl (fun q name => q.join ⟨name⟩) p

theorem names_extend (p : Path) {names : List Name} (hne : ∀ name ∈ names, name ≠ [])
    (hslash : ∀ name ∈ names, slash ∉ name) : (p.extend names).names = p.names ++ names := by
  induction names generalizing p with
  | nil => simp [extend]
  | cons name rest ih =>
    have hname : name ≠ [] := hne name List.mem_cons_self
    have hplain : slash ∉ name := hslash name List.mem_cons_self
    have hrest : ((p.join ⟨name⟩).extend rest).names = (p.join ⟨name⟩).names ++ rest :=
      ih (p.join ⟨name⟩) (fun other hother => hne other (List.mem_cons_of_mem _ hother))
        fun other hother => hslash other (List.mem_cons_of_mem _ hother)
    rw [names_join p (isAbsolute_of_notMem hplain), names_of_name hname hplain] at hrest
    simpa [extend] using hrest

theorem isAbsolute_extend (habsolute : p.isAbsolute = true) (names : List Name) :
    (p.extend names).isAbsolute = true := by
  induction names generalizing p with
  | nil => exact habsolute
  | cons name rest ih => exact ih (isAbsolute_join habsolute)

/-- What a path is read from: a root if it is absolute, and else the base. -/
def anchor (p base : Path) : Path :=
  if p.hasDoubleRoot then ⟨[slash, slash]⟩ else if p.isAbsolute then root else base

theorem isAbsolute_of_hasDoubleRoot (h : p.hasDoubleRoot = true) : p.isAbsolute = true := by
  unfold hasDoubleRoot at h
  split at h
  · next hbytes =>
    simp only [Bool.and_eq_true, decide_eq_true_eq] at h
    simp [isAbsolute, hbytes, h.1.1]
  · cases h

theorem names_anchor (p base : Path) :
    (p.anchor base).names = if p.isAbsolute then [] else base.names := by
  unfold anchor
  split
  · next hroot =>
    rw [if_pos (isAbsolute_of_hasDoubleRoot hroot)]
    decide
  · split
    · decide
    · rfl

theorem isAbsolute_anchor {base : Path} (habsolute : base.isAbsolute = true) :
    (p.anchor base).isAbsolute = true := by
  unfold anchor
  split
  · rfl
  · split
    · rfl
    · exact habsolute

theorem absoluteFrom_eq (p base : Path) :
    p.absoluteFrom base =
      let whole := (p.anchor base).extend (p.names.filter (· ≠ dot))
      if p.endsInSlash then whole.join empty else whole := rfl

/-- The names of a path made absolute are those of its base, and then its own but for the dots. -/
theorem names_absoluteFrom (p base : Path) :
    (p.absoluteFrom base).names
      = (if p.isAbsolute then [] else base.names) ++ p.names.filter (· ≠ dot) := by
  have hwhole : ((p.anchor base).extend (p.names.filter (· ≠ dot))).names
      = (if p.isAbsolute then [] else base.names) ++ p.names.filter (· ≠ dot) := by
    rw [names_extend, names_anchor]
    · exact fun name hname => nonempty_of_mem_names (List.mem_filter.1 hname).1
    · exact fun name hname => slash_notMem_of_mem_names (List.mem_filter.1 hname).1
  rw [absoluteFrom_eq, ← hwhole]
  simp only
  split
  · rw [names_join _ rfl, names_empty, List.append_nil]
  · rfl

theorem isAbsolute_absoluteFrom {base : Path} (habsolute : base.isAbsolute = true) :
    (p.absoluteFrom base).isAbsolute = true := by
  have hwhole : ((p.anchor base).extend (p.names.filter (· ≠ dot))).isAbsolute = true :=
    isAbsolute_extend (isAbsolute_anchor habsolute) _
  rw [absoluteFrom_eq]
  simp only
  split
  · exact isAbsolute_join hwhole
  · exact hwhole

theorem EndsIn.endsInSlash (ends : p.EndsIn folder name) : p.endsInSlash = false := by
  have hhops := ends.hops
  unfold Path.hops at hhops
  split at hhops
  · rw [ends.names] at hhops
    simp at hhops
  · next hslash => simpa using hslash

theorem EndsIn.bytes_ne_nil (ends : p.EndsIn folder name) : p.bytes ≠ [] := by
  intro hempty
  obtain rfl : p = empty := congrArg Path.mk hempty
  have hnames := ends.names
  simp at hnames

/-- A path made absolute ends in the name that it ended in. -/
theorem EndsIn.absoluteFrom (ends : p.EndsIn folder name) (base : Path) :
    (p.absoluteFrom base).EndsIn
      ((if p.isAbsolute then [] else base.names) ++ folder.filter (· ≠ dot)) name := by
  have hfilter : p.names.filter (· ≠ dot) = folder.filter (· ≠ dot) ++ [name] := by
    rw [ends.names, List.filter_append]
    simp [ends.notDot]
  have hslash : slash ∉ name := slash_notMem_of_mem_names (p := p) (by simp [ends.names])
  have hnames := names_absoluteFrom p base
  rw [hfilter, ← List.append_assoc] at hnames
  have hends : (p.absoluteFrom base).endsInSlash = false := by
    rw [absoluteFrom_eq, ends.endsInSlash, hfilter, extend, List.foldl_append]
    exact not_endsInSlash_join _ ends.nonempty hslash
  refine ⟨hnames, ?_, ends.nonempty, ends.notDot, ends.notDotDot⟩
  rw [Path.hops, hends, hnames]
  rfl

/-- The bytes of a path are slashes and the bytes of its names. -/
theorem mem_bytes_iff {b : UInt8} (hb : b ≠ slash) :
    b ∈ p.bytes ↔ ∃ name ∈ p.names, b ∈ name := by
  constructor
  · intro hmem
    obtain ⟨segment, hsegment, hin⟩ := exists_mem_splitOn hb hmem
    have hnonempty : segment ≠ [] := List.ne_nil_of_mem hin
    exact ⟨segment, List.mem_filter.2 ⟨hsegment, by simpa using hnonempty⟩, hin⟩
  · rintro ⟨name, hname, hin⟩
    exact (mem_of_mem_splitOn (List.mem_filter.1 hname).1).2 b hin

theorem zero_mem_absoluteFrom {base : Path} (hbase : 0 ∉ base.bytes) :
    0 ∈ (p.absoluteFrom base).bytes ↔ 0 ∈ p.bytes := by
  have hzero : (0 : UInt8) ≠ slash := by decide
  rw [mem_bytes_iff hzero, mem_bytes_iff hzero, names_absoluteFrom]
  constructor
  · rintro ⟨name, hname, hin⟩
    rcases List.mem_append.1 hname with hname | hname
    · split at hname
      · cases hname
      · exact absurd ((mem_bytes_iff hzero).2 ⟨name, hname, hin⟩) hbase
    · exact ⟨name, (List.mem_filter.1 hname).1, hin⟩
  · rintro ⟨name, hname, hin⟩
    have hdot : name ≠ dot := by
      rintro rfl
      revert hin
      decide
    exact ⟨name, List.mem_append_right _ (List.mem_filter.2 ⟨hname, by simpa using hdot⟩), hin⟩

/-- More text can be put at the end of a path before or after it is joined to another one. -/
theorem join_withSuffix (p q : Path) {suffix : String} (hslash : slash ∉ Text.encode suffix) :
    p.join (q.withSuffix suffix) = (p.join q).withSuffix suffix := by
  have habsolute := isAbsolute_withSuffix q hslash
  unfold join
  rw [habsolute]
  split
  · rfl
  · split
    · simp [withSuffix]
    · simp [withSuffix]

theorem ofString_append (s t : String) : ofString (s ++ t) = (ofString s).withSuffix t := by
  simp [ofString, withSuffix, Text.encode_append]

theorem endsIn_join (p q : Path) (suffix : String) (hslash : slash ∉ Text.encode suffix)
    (hlong : 2 < (Text.encode suffix).length) :
    ∃ folder name, (p.join (q.withSuffix suffix)).EndsIn folder name := by
  rw [join_withSuffix p q hslash]
  obtain ⟨folder, last, hends⟩ := (p.join q).endsIn_withSuffix
  exact ⟨folder, _, hends suffix hslash hlong⟩

end Path

theorem diskExtension_cases (uboot : Bool) (machine : String) :
    diskExtension uboot machine = "ext4" ∨ diskExtension uboot machine = "wic" ∨
      diskExtension uboot machine = "ota-ext4" := by
  unfold diskExtension diskExtensions
  split
  · exact .inl rfl
  · simp only [List.lookup_cons]
    split
    · exact .inr (.inl rfl)
    · split
      · exact .inr (.inr rfl)
      · exact .inr (.inl rfl)

namespace Deployment

variable (d : Deployment)

theorem bootloader_endsIn : ∃ folder name, d.bootloader.EndsIn folder name :=
  d.machineDirectory.endsIn_join .empty "u-boot-qemux86-64.rom" (by decide) (by decide)

theorem kernel_endsIn : ∃ folder name, d.kernel.EndsIn folder name :=
  d.machineDirectory.endsIn_join .empty "bzImage-qemux86-64.bin" (by decide) (by decide)

theorem image_endsIn (recipe : String) (uboot : Bool) :
    ∃ folder name, (d.image recipe (diskExtension uboot d.machine)).EndsIn folder name := by
  unfold image
  rw [Path.ofString_append]
  rcases diskExtension_cases uboot d.machine with hext | hext | hext
  · rw [hext]
    exact d.machineDirectory.endsIn_join _ "ext4" (by decide) (by decide)
  · rw [hext]
    exact d.machineDirectory.endsIn_join _ "wic" (by decide) (by decide)
  · rw [hext]
    exact d.machineDirectory.endsIn_join _ "ota-ext4" (by decide) (by decide)

end Deployment

end LaunchPlan
