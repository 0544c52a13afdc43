import LaunchPlan.Proofs.Path.Segments
import Mathlib.Data.List.DropRight

/-!
The directory part of a path, by its segments. Main statements: `parent_rooted`, `parent_dotted` and
`parent_plain`, what is left of a path with a name when the name is cut off, and
`isAbsolute_parent`, of an absolute path that is absolute.
-/

namespace LaunchPlan.Path

variable {p : Path} {body before front back segments : List Name} {name : Name}

/-- Segments that name nothing: a path made of such ones goes nowhere. -/
def AreIdle (segments : List Name) : Prop := ∀ segment ∈ segments, segment = [] ∨ segment = dot

theorem trimSegments_eq_nil_iff : trimSegments segments = [] ↔ AreIdle segments := by
  simp [trimSegments, AreIdle]

theorem trimSegments_append (front back : List Name) :
    trimSegments (front ++ back)
      = if trimSegments back = [] then trimSegments front else front ++ trimSegments back := by
  simp only [trimSegments, List.reverse_append, List.dropWhile_append, List.isEmpty_iff,
    List.reverse_eq_nil_iff]
  split
  · rfl
  · rw [List.reverse_append, List.reverse_reverse]

theorem trimSegments_of_named (named : ∀ segment ∈ segments, segment ≠ [] ∧ segment ≠ dot) :
    trimSegments segments = segments := by
  rcases List.eq_nil_or_concat segments with rfl | ⟨front, last, rfl⟩
  · rfl
  · have hlast : trimSegments [last] = [last] := by
      simp [trimSegments, named last (by simp)]
    rw [List.concat_eq_append, trimSegments_append, hlast, if_neg (by simp)]

theorem isPrefix_trimSegments (segments : List Name) : trimSegments segments <+: segments :=
  List.rdropWhile_prefix _ segments

/-- Segments that name something have a last name. -/
theorem exists_last_name (active : ¬AreIdle segments) :
    ∃ before name, trimSegments segments = before ++ [name] := by
  rcases List.eq_nil_or_concat (trimSegments segments) with hnil | ⟨before, name, hlast⟩
  · exact absurd (trimSegments_eq_nil_iff.1 hnil) active
  · exact ⟨before, name, by rw [hlast, List.concat_eq_append]⟩

/-- The path from the root through names. -/
def fromRoot (names : List Name) : Path := if names = [] then root else ofSegments ([] :: names)

theorem bytes_fromRoot (hne : segments ≠ []) :
    (fromRoot segments).bytes = segments.flatMap (slash :: ·) := by
  rw [fromRoot, if_neg hne, bytes_ofSegments_root]

theorem isAbsolute_fromRoot (names : List Name) : (fromRoot names).isAbsolute = true := by
  cases names with
  | nil => rfl
  | cons name names => simp [isAbsolute, bytes_fromRoot]

theorem segments_of_isAbsolute (h : p.isAbsolute = true) :
    ∃ body, p.segments = [] :: body ∧ body ≠ [] := by
  obtain ⟨bytes⟩ := p
  cases bytes with
  | nil => simp [isAbsolute] at h
  | cons b rest =>
    obtain rfl : b = slash := by simpa [isAbsolute] using h
    exact ⟨rest.splitOn slash, splitOn_cons_slash rest, List.splitOn_ne_nil slash rest⟩

theorem segments_of_relative (relative : p.isAbsolute = false) (nonempty : p.bytes ≠ []) :
    ∃ first rest, p.segments = first :: rest ∧ first ≠ [] := by
  obtain ⟨bytes⟩ := p
  obtain ⟨b, bytes, rfl⟩ := List.exists_cons_of_ne_nil nonempty
  have hb : b ≠ slash := by simpa [isAbsolute] using relative
  obtain ⟨first, rest, -, hsegments⟩ := splitOn_cons_of_ne hb bytes
  exact ⟨b :: first, rest, hsegments, by simp⟩

theorem parent_rooted (segments : p.segments = [] :: body) (more : body ≠ [])
    (last : trimSegments body = before ++ [name]) :
    p.parent? = some (fromRoot (trimSegments before)) := by
  have hanchor : splitAnchor ([] :: body) = ([[]], body) := by simp [splitAnchor, more]
  simp only [parent?, segments, hanchor, last, List.reverse_append, List.reverse_singleton,
    List.singleton_append, List.reverse_reverse]
  unfold fromRoot
  cases trimSegments before <;> simp

theorem parent_dotted (segments : p.segments = dot :: body)
    (last : trimSegments body = before ++ [name]) :
    p.parent? = some (ofSegments (dot :: trimSegments before)) := by
  have hanchor : splitAnchor (dot :: body) = ([dot], body) := by simp [splitAnchor]
  simp only [parent?, segments, hanchor, last, List.reverse_append, List.reverse_singleton,
    List.singleton_append]
  simp [dot]

theorem parent_plain {first : Name} (segments : p.segments = first :: body) (named : first ≠ [])
    (notDot : first ≠ dot) (last : trimSegments (first :: body) = before ++ [name]) :
    p.parent? = some (ofSegments (trimSegments before)) := by
  have hanchor : splitAnchor (first :: body) = ([], first :: body) := by
    simp [splitAnchor, named, notDot]
  simp only [parent?, segments, hanchor, last, List.reverse_append, List.reverse_singleton,
    List.singleton_append, List.reverse_reverse]
  rfl

/-- The directory part of an absolute path is absolute; there is none only if the path goes
nowhere. -/
theorem isAbsolute_parent (h : p.isAbsolute = true) :
    (∃ base, p.parent? = some base ∧ base.isAbsolute = true) ∨ AreIdle p.segments := by
  obtain ⟨body, hsegments, hmore⟩ := segments_of_isAbsolute h
  by_cases hidle : AreIdle body
  · right
    rw [hsegments]
    intro segment hsegment
    rcases List.mem_cons.1 hsegment with rfl | hin
    · exact .inl rfl
    · exact hidle segment hin
  · obtain ⟨before, name, hlast⟩ := exists_last_name hidle
    exact .inl ⟨_, parent_rooted hsegments hmore hlast, isAbsolute_fromRoot _⟩

end LaunchPlan.Path
