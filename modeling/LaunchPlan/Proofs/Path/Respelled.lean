import LaunchPlan.Proofs.FileSystem.Canonical
import LaunchPlan.Proofs.Path.Absolute
import LaunchPlan.Proofs.Path.Parent

/-!
Relative paths spelled from the path of a directory. Main statements: `Respelled.join`, what is
joined to two spellings of one path gives two spellings of one path, `absoluteFrom_join`, made
absolute they are the same, and `parent_join`, what is read from their directory parts is spelled in
two ways again.
-/

namespace LaunchPlan

namespace Path

variable {p q r : Path}

/-- The bytes of a path with the slash that comes before what is joined to it. -/
def opened (p : Path) : List UInt8 :=
  if p.bytes = [] ∨ p.endsInSlash = true then p.bytes else p.bytes ++ [slash]

theorem join_relative (p : Path) (relative : q.isAbsolute = false) :
    p.join q = ⟨p.opened ++ q.bytes⟩ := by
  unfold join opened
  rw [if_neg (by simp [relative])]
  split
  · rfl
  · simp

theorem endsInSlash_append (front : List UInt8) (nonempty : q.bytes ≠ []) :
    endsInSlash ⟨front ++ q.bytes⟩ = q.endsInSlash := by
  simp only [endsInSlash, List.getLast?_append_of_ne_nil front nonempty]

theorem opened_append (front : List UInt8) (nonempty : q.bytes ≠ []) :
    opened ⟨front ++ q.bytes⟩ = front ++ q.opened := by
  have hne : front ++ q.bytes ≠ [] := by simp [nonempty]
  simp only [opened, endsInSlash_append front nonempty, hne, nonempty, false_or]
  split
  · rfl
  · rw [List.append_assoc]

theorem opened_opened (p : Path) : opened ⟨p.opened⟩ = p.opened := by
  by_cases hopen : p.bytes = [] ∨ p.endsInSlash = true
  · have hopened : p.opened = p.bytes := by rw [opened, if_pos hopen]
    rw [hopened, opened, if_pos hopen]
  · have hopened : p.opened = p.bytes ++ [slash] := by rw [opened, if_neg hopen]
    rw [hopened, opened, if_pos (.inr (by simp [endsInSlash]))]

theorem isAbsolute_join_relative (relative : q.isAbsolute = false) (nonempty : q.bytes ≠ [])
    (also : r.isAbsolute = false) : (q.join r).isAbsolute = false := by
  obtain ⟨b, rest, hbytes⟩ := List.exists_cons_of_ne_nil nonempty
  have hopened : ∃ more, q.opened = b :: more := by
    unfold opened
    split
    · exact ⟨rest, hbytes⟩
    · exact ⟨rest ++ [slash], by rw [hbytes]; rfl⟩
  obtain ⟨more, hmore⟩ := hopened
  rw [join_relative q also, isAbsolute, hmore]
  simpa [isAbsolute, hbytes] using relative

theorem join_assoc (p q r : Path) : (p.join q).join r = p.join (q.join r) := by
  cases hr : r.isAbsolute with
  | true => rw [join_of_isAbsolute hr, join_of_isAbsolute hr, join_of_isAbsolute hr]
  | false =>
    cases hq : q.isAbsolute with
    | true => rw [join_of_isAbsolute hq, join_of_isAbsolute (isAbsolute_join hq)]
    | false =>
      by_cases hempty : q.bytes = []
      · have hjoin : q.join r = r := by
          rw [join_relative q hr, opened, if_pos (.inl hempty), hempty]
          rfl
        rw [hjoin, join_relative p hq, hempty, List.append_nil, join_relative _ hr,
          join_relative p hr, opened_opened]
      · rw [join_relative p (isAbsolute_join_relative hq hempty hr), join_relative q hr,
          join_relative p hq, join_relative _ hr, opened_append _ hempty, List.append_assoc]

theorem endsInSlash_join (relative : q.isAbsolute = false) (nonempty : q.bytes ≠ []) :
    (p.join q).endsInSlash = q.endsInSlash := by
  rw [join_relative p relative, endsInSlash_append _ nonempty]

theorem exists_name (relative : q.isAbsolute = false) (nonempty : q.bytes ≠ []) :
    ∃ name ∈ q.hops, name ≠ [] := by
  obtain ⟨first, rest, hsegments, hfirst⟩ := segments_of_relative relative nonempty
  have hname : first ∈ q.names := List.mem_filter.2 ⟨by simp [hsegments], by simpa using hfirst⟩
  refine ⟨first, ?_, hfirst⟩
  unfold hops
  split
  · exact List.mem_append_left _ hname
  · exact hname

theorem anchor_of_relative (relative : q.isAbsolute = false) (base : Path) :
    q.anchor base = base := by
  have hdouble : q.hasDoubleRoot = false := by
    rw [Bool.eq_false_iff]
    intro hroot
    simp [isAbsolute_of_hasDoubleRoot hroot] at relative
  simp [anchor, hdouble, relative]

/-! The same path after a leading dot. -/

theorem isAbsolute_dotted (relative : q.isAbsolute = false) :
    (join ⟨dot⟩ q).isAbsolute = false :=
  isAbsolute_join_relative (by decide) (by decide) relative

theorem bytes_dotted (relative : q.isAbsolute = false) :
    (join ⟨dot⟩ q).bytes = dot ++ slash :: q.bytes := by
  rw [join_relative _ relative]
  rfl

theorem names_dotted (relative : q.isAbsolute = false) :
    (join ⟨dot⟩ q).names = dot :: q.names := by
  have hdot : names ⟨dot⟩ = [dot] := by decide
  rw [names_join _ relative, hdot]
  rfl

theorem hops_dotted (relative : q.isAbsolute = false) (nonempty : q.bytes ≠ []) :
    (join ⟨dot⟩ q).hops = dot :: q.hops := by
  unfold hops
  rw [endsInSlash_join relative nonempty, names_dotted relative]
  split
  · rfl
  · rfl

theorem absoluteFrom_dotted (relative : q.isAbsolute = false) (nonempty : q.bytes ≠ [])
    (base : Path) : (join ⟨dot⟩ q).absoluteFrom base = q.absoluteFrom base := by
  rw [absoluteFrom_eq, absoluteFrom_eq, anchor_of_relative (isAbsolute_dotted relative),
    anchor_of_relative relative, names_dotted relative, endsInSlash_join relative nonempty,
    List.filter_cons_of_neg (by simp)]

end Path

namespace Location

open LaunchPlan.Path

variable {place : Location} {base p q : Path}

theorem path_eq_fromRoot (here : place.path? = some base) : base = fromRoot place.reverse := by
  by_cases hne : place = []
  · subst hne
    cases here
    rfl
  · rw [path_eq here hne, fromRoot, if_neg (by simpa using hne)]

/-- What is put after the path of a place comes after its names, each with a slash. -/
theorem bytes_join (here : place.path? = some base) (plain : ∀ name ∈ place, name.IsPlain)
    (relative : q.isAbsolute = false) :
    (base.join q).bytes = place.reverse.flatMap (slash :: ·) ++ slash :: q.bytes := by
  rw [join_relative base relative]
  by_cases hne : place = []
  · subst hne
    cases here
    rfl
  · have hbytes := bytes_path here hne
    have hopen : ¬(base.bytes = [] ∨ base.endsInSlash = true) := by
      simp [endsInSlash_path here hne plain, bytes_ne_nil_of_isAbsolute (isAbsolute_path here)]
    rw [opened, if_neg hopen, hbytes]
    simp

theorem splitOn_place {names : List Name} (plain : ∀ name ∈ names, name.IsPlain)
    (bytes : List UInt8) :
    (names.flatMap (slash :: ·) ++ slash :: bytes).splitOn slash
      = [] :: (names ++ bytes.splitOn slash) := by
  induction names with
  | nil => exact splitOn_cons_slash bytes
  | cons name rest ih =>
    have hname : slash ∉ name := (plain name List.mem_cons_self).2
    have hrest := ih fun other hother => plain other (List.mem_cons_of_mem _ hother)
    obtain ⟨more, hmore⟩ : ∃ more, rest.flatMap (slash :: ·) ++ slash :: bytes = slash :: more := by
      cases rest <;> simp
    rw [hmore, splitOn_cons_slash, List.cons.injEq] at hrest
    have hbytes : (name :: rest).flatMap (slash :: ·) ++ slash :: bytes
        = slash :: (name ++ slash :: more) := by
      rw [← hmore]
      simp
    rw [hbytes, splitOn_cons_slash, List.splitOn_append_cons_self, hrest.2,
      List.splitOn_eq_singleton hname]
    rfl

theorem segments_join (here : place.path? = some base) (plain : ∀ name ∈ place, name.IsPlain)
    (relative : q.isAbsolute = false) :
    (base.join q).segments = [] :: (place.reverse ++ q.segments) := by
  rw [segments, bytes_join here plain relative,
    splitOn_place fun name hname => plain name (List.mem_reverse.1 hname)]
  rfl

theorem names_join_path (here : place.path? = some base) (plain : ∀ name ∈ place, name.IsPlain)
    (relative : q.isAbsolute = false) : (base.join q).names = place.reverse ++ q.names := by
  rw [names_join base relative, names_path here plain]

theorem hops_join (here : place.path? = some base) (plain : ∀ name ∈ place, name.IsPlain)
    (relative : q.isAbsolute = false) (nonempty : q.bytes ≠ []) :
    (base.join q).hops = place.reverse ++ q.hops := by
  unfold hops
  rw [endsInSlash_join relative nonempty, names_join_path here plain relative]
  split
  · rw [List.append_assoc]
  · rfl

theorem path_of_isNamed (named : place.isNamed = true) :
    place.path? = some (fromRoot place.reverse) := by
  unfold path? fromRoot
  rw [named]
  by_cases hne : place = []
  · simp [hne]
  · simp [hne]

/-- The path of a place is what its names come to, one after the other. -/
theorem extend_root (here : place.path? = some base) (plain : ∀ name ∈ place, name.IsPlain) :
    root.extend place.reverse = base := by
  induction place generalizing base with
  | nil =>
    cases here
    rfl
  | cons name parent ih =>
    have hnamed : isNamed parent = true := by
      refine List.all_eq_true.2 fun other hother => ?_
      simpa using named_of_path here (List.mem_cons_of_mem _ hother)
    have hparent := path_of_isNamed hnamed
    have hplain : ∀ other ∈ parent, Name.IsPlain other :=
      fun other hother => plain other (List.mem_cons_of_mem _ hother)
    have hname : isAbsolute ⟨name⟩ = false := isAbsolute_of_notMem (plain name List.mem_cons_self).2
    have hextend : root.extend (name :: parent).reverse
        = (root.extend parent.reverse).join ⟨name⟩ := by
      simp [extend]
    have hbytes : ((fromRoot parent.reverse).join ⟨name⟩).bytes = base.bytes := by
      rw [bytes_join hparent hplain hname, bytes_path here (by simp)]
      simp
    rw [hextend, ih hparent hplain]
    exact congrArg Path.mk hbytes

theorem hasDoubleRoot_join (here : place.path? = some base) (plain : ∀ name ∈ place, name.IsPlain)
    (relative : q.isAbsolute = false) (nonempty : q.bytes ≠ []) :
    (base.join q).hasDoubleRoot = false := by
  have hbytes := bytes_join here plain relative
  obtain ⟨b, rest, hb, hbytes⟩ :
      ∃ b rest, b ≠ slash ∧ (base.join q).bytes = slash :: b :: rest := by
    rw [hbytes]
    cases hreverse : place.reverse with
    | nil =>
      obtain ⟨b, rest, hq⟩ := List.exists_cons_of_ne_nil nonempty
      refine ⟨b, rest, ?_, by rw [hq]; rfl⟩
      simpa [isAbsolute, hq] using relative
    | cons name names =>
      have hmem : name ∈ place := List.mem_reverse.1 (by rw [hreverse]; exact List.mem_cons_self)
      obtain ⟨b, more, hname⟩ := List.exists_cons_of_ne_nil (named_of_path here hmem)
      refine ⟨b, _, ?_, by rw [hname]; rfl⟩
      rintro rfl
      exact (plain name hmem).2 (by rw [hname]; exact List.mem_cons_self)
  unfold hasDoubleRoot
  rw [hbytes]
  simp [hb]

/-- The path of a place costs its length and a slash when it is put before another one. -/
theorem length_join (here : place.path? = some base) (plain : ∀ name ∈ place, name.IsPlain)
    (relative : p.isAbsolute = false) :
    (base.join p).bytes.length = place.pathLength + 1 + p.bytes.length := by
  have hplace : (place.reverse.flatMap (slash :: ·)).length = place.pathLength := by
    by_cases hne : place = []
    · subst hne
      rfl
    · rw [← bytes_path here hne, length_path here hne]
  rw [bytes_join here plain relative, List.length_append, hplace, List.length_cons]
  omega

theorem zero_mem_join (here : place.path? = some base) (plain : ∀ name ∈ place, name.IsPlain)
    (relative : p.isAbsolute = false) : 0 ∈ (base.join p).bytes ↔ 0 ∈ p.bytes := by
  have hplace : 0 ∉ place.reverse.flatMap (slash :: ·) := by
    rw [List.mem_flatMap]
    rintro ⟨name, hname, hzero⟩
    rcases List.mem_cons.1 hzero with hslash | hin
    · exact absurd hslash (by decide)
    · exact (plain name (List.mem_reverse.1 hname)).1 hin
  have hslash : (0 : UInt8) ≠ slash := by decide
  simp [bytes_join here plain relative, hplace, hslash]

/-- Spelled from the path of the directory that it is read in, a path is made absolute as before. -/
theorem absoluteFrom_join (here : place.path? = some base) (proper : ∀ name ∈ place, name.IsProper)
    (relative : q.isAbsolute = false) (nonempty : q.bytes ≠ []) :
    (base.join q).absoluteFrom root = q.absoluteFrom base := by
  have hplain : ∀ name ∈ place, name.IsPlain := fun name hname => (proper name hname).plain
  have habsolute : (base.join q).isAbsolute = true := isAbsolute_join (isAbsolute_path here)
  have hanchor : (base.join q).anchor root = root := by
    simp [anchor, hasDoubleRoot_join here hplain relative nonempty, habsolute]
  have hdots : place.reverse.filter (· ≠ dot) = place.reverse := by
    rw [List.filter_eq_self]
    intro name hname
    simpa using (proper name (List.mem_reverse.1 hname)).notDot
  have hwhole : root.extend ((base.join q).names.filter (· ≠ dot))
      = base.extend (q.names.filter (· ≠ dot)) := by
    rw [names_join_path here hplain relative, List.filter_append, hdots, ← extend_root here hplain]
    simp only [extend, List.foldl_append]
  rw [absoluteFrom_eq, absoluteFrom_eq, hanchor, anchor_of_relative relative, hwhole,
    endsInSlash_join relative nonempty]

end Location

namespace Path

/-- Two spellings of one path that is read in the directory of the path `base`: a relative path,
with or without a leading dot, and the same path after `base`. -/
inductive Respelled (base : Path) : Path → Path → Prop
  | same {p : Path} (rooted : p.isAbsolute = true) : Respelled base p p
  | joined {p : Path} (relative : p.isAbsolute = false) (nonempty : p.bytes ≠ []) :
      Respelled base p (base.join p)
  | dotted {p : Path} (relative : p.isAbsolute = false) (nonempty : p.bytes ≠ []) :
      Respelled base (join ⟨dot⟩ p) (base.join p)

namespace Respelled

variable {base p q : Path}

theorem join_nonempty {r : Path} (nonempty : p.bytes ≠ []) (relative : r.isAbsolute = false) :
    (p.join r).bytes ≠ [] := by
  rw [join_relative p relative]
  unfold opened
  split
  · simp [nonempty]
  · simp

theorem join (h : Respelled base p q) (r : Path) : Respelled base (p.join r) (q.join r) := by
  cases hr : r.isAbsolute with
  | true =>
    rw [join_of_isAbsolute hr, join_of_isAbsolute hr]
    exact .same hr
  | false =>
    cases h with
    | same hrooted => exact .same (isAbsolute_join hrooted)
    | joined hrelative hnonempty =>
      rw [join_assoc]
      exact .joined (isAbsolute_join_relative hrelative hnonempty hr) (join_nonempty hnonempty hr)
    | dotted hrelative hnonempty =>
      rw [join_assoc, join_assoc]
      exact .dotted (isAbsolute_join_relative hrelative hnonempty hr) (join_nonempty hnonempty hr)

theorem withSuffix (h : Respelled base p q) {suffix : String}
    (hslash : slash ∉ Text.encode suffix) :
    Respelled base (p.withSuffix suffix) (q.withSuffix suffix) := by
  have hnonempty {r : Path} (nonempty : r.bytes ≠ []) : (r.withSuffix suffix).bytes ≠ [] := by
    simp [Path.withSuffix, nonempty]
  cases h with
  | same hrooted => exact .same (by rw [isAbsolute_withSuffix _ hslash, hrooted])
  | joined hrelative hne =>
    rw [← join_withSuffix _ _ hslash]
    exact .joined (by rw [isAbsolute_withSuffix _ hslash, hrelative]) (hnonempty hne)
  | dotted hrelative hne =>
    rw [← join_withSuffix _ _ hslash, ← join_withSuffix _ _ hslash]
    exact .dotted (by rw [isAbsolute_withSuffix _ hslash, hrelative]) (hnonempty hne)

end Respelled

end Path

namespace Location

open LaunchPlan.Path

variable {place : Location} {base p front : Path} {first : Name} {more before : List Name}

theorem relative_ofSegments (more : List Name) (named : first ≠ []) (hslash : slash ∉ first) :
    (ofSegments (first :: more)).isAbsolute = false ∧ (ofSegments (first :: more)).bytes ≠ [] := by
  obtain ⟨b, rest, rfl⟩ := List.exists_cons_of_ne_nil named
  have hb : b ≠ slash := by
    rintro rfl
    simp at hslash
  obtain ⟨tail, htail⟩ : ∃ tail, (ofSegments ((b :: rest) :: more)).bytes = b :: tail := by
    cases more <;> simp [ofSegments]
  exact ⟨by simp [isAbsolute, htail, hb], by simp [htail]⟩

theorem join_ofSegments (here : place.path? = some base) (plain : ∀ name ∈ place, name.IsPlain)
    (named : first ≠ []) (hslash : slash ∉ first) :
    base.join (ofSegments (first :: more)) = fromRoot (place.reverse ++ first :: more) := by
  have hroot : slash :: (ofSegments (first :: more)).bytes
      = (first :: more).flatMap (slash :: ·) := by
    rw [← bytes_ofSegments_root]
    simp [ofSegments]
  have hbytes : (base.join (ofSegments (first :: more))).bytes
      = (fromRoot (place.reverse ++ first :: more)).bytes := by
    rw [bytes_join here plain (relative_ofSegments more named hslash).1, hroot,
      bytes_fromRoot (by simp), List.flatMap_append]
  exact congrArg Path.mk hbytes

theorem trimSegments_place (proper : ∀ name ∈ place, name.IsProper) (before : List Name) :
    trimSegments (place.reverse ++ before) = place.reverse ++ trimSegments before := by
  rw [trimSegments_append]
  split
  · next hidle =>
    rw [hidle, List.append_nil]
    refine trimSegments_of_named fun name hname => ?_
    have hproper := proper name (List.mem_reverse.1 hname)
    exact ⟨hproper.nonempty, hproper.notDot⟩
  · rfl

/-- What is read from two directory parts of one path is the same path in two spellings. -/
def ReadsFromBoth (base front other : Path) : Prop :=
  ∀ r : Path, r.bytes ≠ [] → Respelled base (front.join r) (other.join r)

theorem readsFromBoth_base (front : Path) (h : front.bytes = [] ∨ front = ⟨dot⟩) :
    ReadsFromBoth base front base := by
  intro r hr
  cases habsolute : r.isAbsolute with
  | true =>
    rw [join_of_isAbsolute habsolute, join_of_isAbsolute habsolute]
    exact .same habsolute
  | false =>
    rcases h with hempty | rfl
    · have hjoin : front.join r = r := by
        rw [join_relative front habsolute, opened, if_pos (.inl hempty), hempty]
        rfl
      rw [hjoin]
      exact .joined habsolute hr
    · exact .dotted habsolute hr

theorem readsFromBoth_join (here : place.path? = some base) (plain : ∀ name ∈ place, name.IsPlain)
    (named : first ≠ []) (hslash : slash ∉ first) (more : List Name) :
    ReadsFromBoth base (ofSegments (first :: more))
      (fromRoot (place.reverse ++ first :: more)) := by
  intro r _
  obtain ⟨hrelative, hnonempty⟩ := relative_ofSegments more named hslash
  rw [← join_ofSegments here plain named hslash]
  exact (Respelled.joined hrelative hnonempty).join r

/-- The directory part of a path stays the same when the path is spelled from that of the directory
that it is read in. -/
theorem parent_join (here : place.path? = some base) (proper : ∀ name ∈ place, name.IsProper)
    (relative : p.isAbsolute = false) (active : ¬AreIdle p.segments) :
    ∃ front other, p.parent? = some front ∧ (base.join p).parent? = some other ∧
      ReadsFromBoth base front other := by
  have hplain : ∀ name ∈ place, name.IsPlain := fun name hname => (proper name hname).plain
  have hnonempty : p.bytes ≠ [] := by
    rintro hempty
    exact active (by simp [AreIdle, segments, hempty])
  have hbase : base = fromRoot (place.reverse ++ []) := by
    rw [List.append_nil]
    exact path_eq_fromRoot here
  obtain ⟨first, rest, hsegments, hfirst⟩ := segments_of_relative relative hnonempty
  obtain ⟨before, name, hlast⟩ := exists_last_name active
  have hother : (base.join p).parent? = some (fromRoot (place.reverse ++ trimSegments before)) := by
    have hjoined : trimSegments (place.reverse ++ p.segments)
        = (place.reverse ++ before) ++ [name] := by
      rw [trimSegments_place proper, hlast, List.append_assoc]
    rw [← trimSegments_place proper before]
    exact parent_rooted (segments_join here hplain relative) (by simp [hsegments]) hjoined
  rw [hsegments] at hlast
  by_cases hdot : first = dot
  · -- The leading dot is kept, and goes away if nothing but the name comes after it.
    subst hdot
    have hrest : ¬AreIdle rest := by
      intro hidle
      refine active fun segment hsegment => ?_
      rw [hsegments] at hsegment
      rcases List.mem_cons.1 hsegment with rfl | hin
      · exact .inr rfl
      · exact hidle segment hin
    obtain ⟨after, last, hafter⟩ := exists_last_name hrest
    have hbefore : before = dot :: after := by
      have htrim := trimSegments_append [dot] rest
      rw [hafter, if_neg (by simp), List.singleton_append, hlast] at htrim
      have happend : before ++ [name] = (dot :: after) ++ [last] := by simpa using htrim
      exact (List.append_inj' happend rfl).1
    refine ⟨_, _, parent_dotted hsegments hafter, hother, ?_⟩
    have htrim := trimSegments_append [dot] after
    rw [List.singleton_append, ← hbefore] at htrim
    split at htrim
    · next hidle =>
      have hdots : trimSegments [dot] = [] := by decide
      rw [htrim, hdots, ← hbase, hidle]
      exact readsFromBoth_base _ (.inr rfl)
    · rw [htrim]
      exact readsFromBoth_join here hplain (by decide) (by decide) _
  · refine ⟨_, _, parent_plain hsegments hfirst hdot hlast, hother, ?_⟩
    have hprefix : trimSegments before <+: first :: rest :=
      (isPrefix_trimSegments before).trans
        ((List.prefix_append before [name]).trans (hlast ▸ isPrefix_trimSegments _))
    rcases List.prefix_cons_iff.1 hprefix with hempty | ⟨more, hmore, -⟩
    · rw [hempty, ← hbase]
      exact readsFromBoth_base _ (.inl rfl)
    · have hslash : slash ∉ first := by
        have hmem : first ∈ p.segments := by rw [hsegments]; exact List.mem_cons_self
        exact (mem_of_mem_splitOn hmem).1
      rw [hmore]
      exact readsFromBoth_join here hplain hfirst hslash more

end Location

end LaunchPlan
