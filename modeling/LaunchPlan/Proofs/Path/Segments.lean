import LaunchPlan.FileSystem.Basic

/-!
Paths as lists of names. Main statements: `plain_of_mem_hops`, a path that can be followed is made
of plain names, `endsIn_withSuffix`, more text at the end of a path changes its last name only, and
`hops_path`, the path of a place goes through the names of the place.
-/

namespace LaunchPlan

namespace Path

theorem splitOn_cons_slash (bytes : List UInt8) :
    (slash :: bytes).splitOn slash = [] :: bytes.splitOn slash := by
  simp [List.splitOn_cons_eq_if_modifyHead]

theorem splitOn_cons_of_ne {b : UInt8} (h : b ≠ slash) (bytes : List UInt8) :
    ∃ first rest, bytes.splitOn slash = first :: rest ∧
      (b :: bytes).splitOn slash = (b :: first) :: rest := by
  obtain ⟨first, rest, hsplit⟩ := List.exists_cons_of_ne_nil (List.splitOn_ne_nil slash bytes)
  refine ⟨first, rest, hsplit, ?_⟩
  simp [List.splitOn_cons_eq_if_modifyHead, h, hsplit]

/-- The stretches between slashes have their bytes from the path, and no slash. -/
theorem mem_of_mem_splitOn {bytes segment : List UInt8} (h : segment ∈ bytes.splitOn slash) :
    slash ∉ segment ∧ ∀ b ∈ segment, b ∈ bytes := by
  induction bytes generalizing segment with
  | nil =>
    obtain rfl : segment = [] := by simpa using h
    simp
  | cons b bytes ih =>
    by_cases hb : b = slash
    · rw [hb, splitOn_cons_slash, List.mem_cons] at h
      rcases h with rfl | h
      · simp
      · exact ⟨(ih h).1, fun c hc => List.mem_cons_of_mem _ ((ih h).2 c hc)⟩
    · obtain ⟨first, rest, hsplit, hcons⟩ := splitOn_cons_of_ne hb bytes
      rw [hcons, List.mem_cons] at h
      rcases h with rfl | h
      · have hfirst := @ih first (by simp [hsplit])
        refine ⟨by simp [hfirst.1, Ne.symm hb], fun c hc => ?_⟩
        rcases List.mem_cons.1 hc with rfl | hc
        · exact List.mem_cons_self
        · exact List.mem_cons_of_mem _ (hfirst.2 c hc)
      · have hrest := @ih segment (by simp [hsplit, h])
        exact ⟨hrest.1, fun c hc => List.mem_cons_of_mem _ (hrest.2 c hc)⟩

/-- Every byte but the slashes is in a stretch between slashes. -/
theorem exists_mem_splitOn {b : UInt8} {bytes : List UInt8} (hb : b ≠ slash) (h : b ∈ bytes) :
    ∃ segment ∈ bytes.splitOn slash, b ∈ segment := by
  induction bytes with
  | nil => cases h
  | cons c bytes ih =>
    by_cases hc : c = slash
    · have hmem : b ∈ bytes := by simpa [hc, hb] using h
      obtain ⟨segment, hsegment, hin⟩ := ih hmem
      rw [hc, splitOn_cons_slash]
      exact ⟨segment, List.mem_cons_of_mem _ hsegment, hin⟩
    · obtain ⟨first, rest, hsplit, hcons⟩ := splitOn_cons_of_ne hc bytes
      rw [hcons]
      rcases List.mem_cons.1 h with rfl | hmem
      · exact ⟨b :: first, List.mem_cons_self, List.mem_cons_self⟩
      · obtain ⟨segment, hsegment, hin⟩ := ih hmem
        rw [hsplit] at hsegment
        rcases List.mem_cons.1 hsegment with rfl | hsegment
        · exact ⟨c :: segment, List.mem_cons_self, List.mem_cons_of_mem _ hin⟩
        · exact ⟨segment, List.mem_cons_of_mem _ hsegment, hin⟩

theorem plain_of_mem_names {p : Path} (h : 0 ∉ p.bytes) {name : Name} (hname : name ∈ p.names) :
    name.IsPlain := by
  obtain ⟨hslash, hbytes⟩ := mem_of_mem_splitOn (List.mem_filter.1 hname).1
  exact ⟨fun hzero => h (hbytes 0 hzero), hslash⟩

theorem plain_of_mem_hops {p : Path} (h : 0 ∉ p.bytes) {name : Name} (hname : name ∈ p.hops) :
    name.IsPlain := by
  unfold hops at hname
  split at hname
  · rcases List.mem_append.1 hname with hname | hname
    · exact plain_of_mem_names h hname
    · obtain rfl : name = [] := by simpa using hname
      exact ⟨by simp, by simp⟩
  · exact plain_of_mem_names h hname

/-- The bytes of a path up to its last slash, if it has one, and after it. -/
theorem split_last (bytes : List UInt8) :
    slash ∉ bytes ∨ ∃ front last, bytes = front ++ slash :: last ∧ slash ∉ last := by
  by_cases h : slash ∈ bytes
  · obtain ⟨last, front, hreverse, hlast⟩ := List.eq_append_cons_of_mem (List.mem_reverse.2 h)
    refine .inr ⟨front.reverse, last.reverse, ?_, by simpa using hlast⟩
    rw [← List.reverse_reverse bytes, hreverse]
    simp
  · exact .inl h

/-- The last segment of a path, and those before it. -/
theorem segments_append (bytes : List UInt8) :
    ∃ before last, ∀ more : List UInt8, slash ∉ more →
      segments ⟨bytes ++ more⟩ = before ++ [last ++ more] := by
  rcases split_last bytes with h | ⟨front, last, rfl, hlast⟩
  · refine ⟨[], bytes, fun more hmore => ?_⟩
    have hall : slash ∉ bytes ++ more := by simp [h, hmore]
    simpa [segments] using List.splitOn_eq_singleton hall
  · refine ⟨front.splitOn slash, last, fun more hmore => ?_⟩
    have hall : slash ∉ last ++ more := by simp [hlast, hmore]
    rw [segments, List.append_assoc, List.cons_append, List.splitOn_append_cons_self,
      List.splitOn_eq_singleton hall]

theorem not_endsInSlash_append (bytes : List UInt8) {more : List UInt8} (hmore : slash ∉ more)
    (hne : more ≠ []) : endsInSlash ⟨bytes ++ more⟩ = false := by
  obtain ⟨init, b, rfl⟩ := List.eq_nil_or_concat more |>.resolve_left hne
  have hb : b ≠ slash := by
    rintro rfl
    simp at hmore
  simp [endsInSlash, ← List.append_assoc, hb]

/-- More text at the end of a path, if it is no slash, changes the last of its names only. -/
theorem hops_append (bytes : List UInt8) :
    ∃ before last, ∀ more : List UInt8, slash ∉ more → more ≠ [] →
      names ⟨bytes ++ more⟩ = before ++ [last ++ more] ∧
      hops ⟨bytes ++ more⟩ = before ++ [last ++ more] := by
  obtain ⟨before, last, hsegments⟩ := segments_append bytes
  refine ⟨before.filter (· ≠ []), last, fun more hmore hne => ?_⟩
  have hnames : names ⟨bytes ++ more⟩ = before.filter (· ≠ []) ++ [last ++ more] := by
    rw [names, hsegments more hmore, List.filter_append]
    simp [hne]
  exact ⟨hnames, by rw [hops, not_endsInSlash_append bytes hmore hne, ← hnames]; simp⟩

/-- A path that ends in a name of its own, after the names of its directory. -/
structure EndsIn (p : Path) (folder : List Name) (name : Name) : Prop where
  names : p.names = folder ++ [name]
  hops : p.hops = folder ++ [name]
  nonempty : name ≠ []
  notDot : name ≠ dot
  notDotDot : name ≠ dotDot

/-- With more text at its end, a path leads through the same directories to a name that ends in that
text. -/
theorem endsIn_withSuffix (p : Path) :
    ∃ folder last, ∀ suffix, slash ∉ Text.encode suffix → 2 < (Text.encode suffix).length →
      (p.withSuffix suffix).EndsIn folder (last ++ Text.encode suffix) := by
  obtain ⟨folder, last, happend⟩ := hops_append p.bytes
  refine ⟨folder, last, fun suffix hslash hlong => ?_⟩
  have hlength : 2 < (last ++ Text.encode suffix).length := by
    rw [List.length_append]
    omega
  have hne : Text.encode suffix ≠ [] := List.ne_nil_of_length_pos (by omega)
  obtain ⟨hnames, hhops⟩ := happend (Text.encode suffix) hslash hne
  refine ⟨hnames, hhops, ?_, ?_, ?_⟩
  · intro hempty
    simp [hempty] at hlength
  · intro hdot
    simp [hdot, dot] at hlength
  · intro hdots
    simp [hdots, dotDot] at hlength

theorem bytes_ne_nil_of_isAbsolute {p : Path} (h : p.isAbsolute = true) : p.bytes ≠ [] := by
  intro hempty
  simp [isAbsolute, hempty] at h

theorem isAbsolute_withSuffix (p : Path) {suffix : String} (h : slash ∉ Text.encode suffix) :
    (p.withSuffix suffix).isAbsolute = p.isAbsolute := by
  cases hbytes : p.bytes with
  | nil =>
    have hhead : (Text.encode suffix).head? ≠ some slash :=
      fun hfirst => h (List.mem_of_head? hfirst)
    simp [isAbsolute, withSuffix, hbytes, hhead]
  | cons b rest => simp [isAbsolute, withSuffix, hbytes]

theorem bytes_ofSegments_root (names : List Name) :
    (ofSegments ([] :: names)).bytes = names.flatMap (slash :: ·) := by
  unfold ofSegments
  induction names with
  | nil => rfl
  | cons name rest ih =>
    have htail : List.intercalate [slash] (name :: rest)
        = name ++ List.intercalate [slash] ([] :: rest) := by
      cases rest <;> simp
    simp only at ih
    simp [htail, ih]

end Path

namespace Location

open LaunchPlan.Path

variable {place : Location} {p : Path}

theorem named_of_path (h : place.path? = some p) {name : Name} (hname : name ∈ place) :
    name ≠ [] := by
  unfold path? at h
  split at h
  · cases h
  · next hnamed =>
    have hall : place.isNamed = true := by simpa using hnamed
    simpa using List.all_eq_true.1 hall name hname

theorem path_eq (h : place.path? = some p) (hne : place ≠ []) :
    p = ofSegments ([] :: place.reverse) := by
  simp only [path?, if_neg hne] at h
  split at h
  · cases h
  · exact (Option.some.inj h).symm

theorem bytes_path (h : place.path? = some p) (hne : place ≠ []) :
    p.bytes = place.reverse.flatMap (slash :: ·) := by
  rw [path_eq h hne, bytes_ofSegments_root]

theorem length_path (h : place.path? = some p) (hne : place ≠ []) :
    p.bytes.length = place.pathLength := by
  rw [bytes_path h hne]
  clear h hne
  unfold pathLength
  induction place with
  | nil => rfl
  | cons name parent ih =>
    simp only [List.reverse_cons, List.flatMap_append, List.length_append, ih, List.foldr_cons,
      List.flatMap_cons, List.flatMap_nil, List.length_cons, List.length_nil]
    omega

theorem isAbsolute_path (h : place.path? = some p) : p.isAbsolute = true := by
  by_cases hne : place = []
  · subst hne
    cases h
    rfl
  · have hbytes := bytes_path h hne
    obtain ⟨name, names, hnames⟩ := List.exists_cons_of_ne_nil (l := place.reverse) (by simpa using hne)
    simp [isAbsolute, hbytes, hnames]

theorem zero_notMem_path (h : place.path? = some p) (plain : ∀ name ∈ place, name.IsPlain) :
    0 ∉ p.bytes := by
  by_cases hne : place = []
  · subst hne
    cases h
    decide
  · rw [bytes_path h hne]
    simp only [List.mem_flatMap, List.mem_cons, List.mem_reverse, not_exists, not_and, not_or]
    exact fun name hname => ⟨by decide, (plain name hname).1⟩

/-- The path of a place is made of the names of the place. -/
theorem names_path (h : place.path? = some p) (plain : ∀ name ∈ place, name.IsPlain) :
    p.names = place.reverse := by
  by_cases hne : place = []
  · subst hne
    cases h
    decide
  · have hslash : ∀ segment ∈ [] :: place.reverse, slash ∉ segment := by
      intro segment hsegment
      rcases List.mem_cons.1 hsegment with rfl | hsegment
      · simp
      · exact (plain segment (List.mem_reverse.1 hsegment)).2
    have hall : ∀ other ∈ place.reverse, other ≠ [] := by
      intro other hother
      exact named_of_path h (List.mem_reverse.1 hother)
    rw [names, segments, path_eq h hne, ofSegments, List.splitOn_intercalate slash hslash (by simp)]
    rw [List.filter_cons_of_neg (by simp), List.filter_eq_self]
    simpa using hall

theorem endsInSlash_path (h : place.path? = some p) (hne : place ≠ [])
    (plain : ∀ name ∈ place, name.IsPlain) : p.endsInSlash = false := by
  obtain ⟨name, parent, rfl⟩ := List.exists_cons_of_ne_nil hne
  have hbytes : p.bytes = (parent.reverse.flatMap (slash :: ·) ++ [slash]) ++ name := by
    rw [bytes_path h hne]
    simp
  have hlast := not_endsInSlash_append (parent.reverse.flatMap (slash :: ·) ++ [slash])
    (plain name List.mem_cons_self).2 (named_of_path h List.mem_cons_self)
  rw [← hbytes] at hlast
  exact hlast

/-- The path of a place goes through the names of the place. -/
theorem hops_path (h : place.path? = some p) (hne : place ≠ [])
    (plain : ∀ name ∈ place, name.IsPlain) : p.hops = place.reverse := by
  rw [hops, endsInSlash_path h hne plain, ← names_path h plain]
  rfl

end Location

end LaunchPlan
