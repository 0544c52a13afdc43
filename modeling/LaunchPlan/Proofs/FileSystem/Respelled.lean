import LaunchPlan.Proofs.FileSystem.SameWay
import LaunchPlan.Proofs.Path.Respelled

/-!
Where the spellings of a path lead. Main statements: `followTo_respelled`, they lead the same way,
whatever for, if both are short enough to be followed or neither is, `sameWay_respelled`, so they
come to the same, and `follow_too_long`, a path that is not short enough leads nowhere.
-/

namespace LaunchPlan

open LaunchPlan.Path Location

/-- Two paths are short enough to be followed, or neither is. -/
def Path.LengthsAgree (p q : Path) : Prop :=
  q.bytes.length < FileSystem.maxPath ↔ p.bytes.length < FileSystem.maxPath

instance (p q : Path) : Decidable (p.LengthsAgree q) := inferInstanceAs (Decidable (_ ↔ _))

namespace FileSystem

variable {fs : FileSystem} {aim : Aim} {cwd cwd' : Location} {base p q : Path}

/-- The working directory is a directory that has a path. -/
structure StandsAt (fs : FileSystem) (cwd : Location) (base : Path) : Prop where
  path : cwd.path? = some base
  proper : ∀ name ∈ cwd, name.IsProper
  standing : fs.isStanding cwd = true

theorem StandsAt.plain (stands : fs.StandsAt cwd base) : ∀ name ∈ cwd, name.IsPlain :=
  fun name hname => (stands.proper name hname).plain

theorem StandsAt.later {after : FileSystem} (stands : fs.StandsAt cwd base)
    (grows : fs.Grows after) : after.StandsAt cwd base :=
  ⟨stands.path, stands.proper, (grows.isStanding cwd).trans stands.standing⟩

/-- Two paths lead the same way if the walks along them do, unless one of them is not walked. -/
theorem followTo_congr (zero : 0 ∈ q.bytes ↔ 0 ∈ p.bytes) (lengths : p.LengthsAgree q)
    (nonempty : p.bytes ≠ [] ∧ fs.isStanding (startOf cwd p) = true)
    (nonempty' : q.bytes ≠ [] ∧ fs.isStanding (startOf cwd' q) = true)
    (walks : q.bytes.length < maxPath → fs.walk aim maxLinks (startOf cwd' q) q.hops
      = fs.walk aim maxLinks (startOf cwd p) p.hops) :
    fs.followTo aim cwd' q = fs.followTo aim cwd p := by
  unfold Path.LengthsAgree at lengths
  unfold followTo
  by_cases hzero : 0 ∈ p.bytes
  · rw [if_pos (zero.2 hzero), if_pos hzero]
  rw [if_neg (hzero ∘ zero.1), if_neg hzero]
  by_cases hlong : maxPath ≤ p.bytes.length
  · rw [if_pos (by omega), if_pos hlong]
  rw [if_neg (by omega), if_neg hlong, if_neg (by simp [nonempty']), if_neg (by simp [nonempty])]
  exact walks (by omega)

/-- Spelled from the path of the working directory, a path leads where it led. -/
theorem followTo_joined (stands : fs.StandsAt cwd base) (relative : p.isAbsolute = false)
    (nonempty : p.bytes ≠ []) (lengths : p.LengthsAgree (base.join p)) :
    fs.followTo aim cwd' (base.join p) = fs.followTo aim cwd p := by
  have habsolute : (base.join p).isAbsolute = true := isAbsolute_join (isAbsolute_path stands.path)
  have hstart : startOf cwd p = cwd := by rw [startOf, if_neg (by simp [relative])]
  refine followTo_congr (zero_mem_join stands.path stands.plain relative) lengths
    ⟨nonempty, by rw [hstart, stands.standing]⟩
    ⟨bytes_ne_nil_of_isAbsolute habsolute, by rw [startOf_of_isAbsolute habsolute]; rfl⟩ ?_
  intro hshort
  rw [length_join stands.path stands.plain relative] at hshort
  have hasked := Bool.toNat_le (checksDirectory p.hops)
  rw [startOf_of_isAbsolute habsolute, hstart, hops_join stands.path stands.plain relative nonempty]
  exact walk_through stands.proper stands.standing maxLinks p.hops
    (fun _ => exists_name relative nonempty) fun _ => by omega

/-- All spellings of a path lead the same way. -/
theorem followTo_respelled (stands : fs.StandsAt cwd base) (h : Respelled base p q)
    (lengths : p.LengthsAgree q) : fs.followTo aim cwd q = fs.followTo aim cwd p := by
  cases h with
  | same => rfl
  | joined hrelative hnonempty => exact followTo_joined stands hrelative hnonempty lengths
  | @dotted r hrelative hnonempty =>
    have habsolute : (base.join r).isAbsolute = true :=
      isAbsolute_join (isAbsolute_path stands.path)
    have hstart : startOf cwd (Path.join ⟨dot⟩ r) = cwd := by
      rw [startOf, if_neg (by simp [isAbsolute_dotted hrelative])]
    have hzero : 0 ∈ (Path.join ⟨dot⟩ r).bytes ↔ 0 ∈ r.bytes := by
      rw [bytes_dotted hrelative]
      simp [dot, slash]
    refine followTo_congr ((zero_mem_join stands.path stands.plain hrelative).trans hzero.symm)
      lengths ⟨by simp [bytes_dotted hrelative], by rw [hstart, stands.standing]⟩
      ⟨bytes_ne_nil_of_isAbsolute habsolute, by rw [startOf_of_isAbsolute habsolute]; rfl⟩ ?_
    intro hshort
    rw [length_join stands.path stands.plain hrelative] at hshort
    obtain ⟨onLink, hwalk⟩ := @walk_eq_walkNames fs aim maxLinks
    have hskip : fs.walk aim maxLinks cwd (dot :: r.hops) = fs.walk aim maxLinks cwd r.hops := by
      rw [hwalk, hwalk, walkNames, if_pos (.inr rfl)]
    have hasked := Bool.toNat_le (checksDirectory r.hops)
    rw [startOf_of_isAbsolute habsolute, hstart,
      hops_join stands.path stands.plain hrelative hnonempty,
      hops_dotted hrelative hnonempty, hskip]
    exact walk_through stands.proper stands.standing maxLinks r.hops
      (fun _ => exists_name hrelative hnonempty) fun _ => by omega

/-- What is spelled from the path of the working directory is longer than that. -/
theorem long_of_respelled (stands : fs.StandsAt cwd base) (h : Respelled base p q)
    (relative : p.isAbsolute = false) : cwd.pathLength + 1 < q.bytes.length := by
  have hlong {r : Path} (hrelative : r.isAbsolute = false) (hnonempty : r.bytes ≠ []) :
      cwd.pathLength + 1 < (base.join r).bytes.length := by
    have hpos := List.length_pos_iff.2 hnonempty
    rw [length_join stands.path stands.plain hrelative]
    omega
  cases h with
  | same hrooted => cases relative.symm.trans hrooted
  | joined hrelative hnonempty => exact hlong hrelative hnonempty
  | dotted hrelative hnonempty => exact hlong hrelative hnonempty

theorem absolute_of_relative (stands : fs.StandsAt cwd base) (relative : p.isAbsolute = false)
    (nonempty : p.bytes ≠ []) : absolute cwd p = .ok (p.absoluteFrom base) := by
  rw [absolute, if_neg nonempty, if_neg (by simp [relative]), workingPath, stands.path]
  rfl

/-- All spellings of a path are made absolute alike. -/
theorem absolute_respelled (stands : fs.StandsAt cwd base) (h : Respelled base p q) :
    absolute cwd q = absolute cwd p := by
  cases h with
  | same => rfl
  | joined hrelative hnonempty =>
    rw [absolute_of_isAbsolute (isAbsolute_join (isAbsolute_path stands.path)),
      absolute_of_relative stands hrelative hnonempty,
      absoluteFrom_join stands.path stands.proper hrelative hnonempty]
  | dotted hrelative hnonempty =>
    rw [absolute_of_isAbsolute (isAbsolute_join (isAbsolute_path stands.path)),
      absolute_of_relative stands (isAbsolute_dotted hrelative) (by simp [bytes_dotted hrelative]),
      absoluteFrom_join stands.path stands.proper hrelative hnonempty,
      absoluteFrom_dotted hrelative hnonempty]

/-- Spellings of a path come to the same, if both are short enough to be followed or neither is. -/
theorem sameWay_respelled (stands : fs.StandsAt cwd base) (h : Respelled base p q)
    (lengths : p.LengthsAgree q) : fs.SameWay cwd cwd p q where
  followTo _ _ grows := (followTo_respelled (stands.later grows) h lengths).symm
  absolute := (absolute_respelled stands h).symm
  start := by
    have hnamed : cwd.isNamed = true := by
      refine List.all_eq_true.2 fun name hname => ?_
      simpa using (stands.proper name hname).nonempty
    rw [startOf_isNamed hnamed p, startOf_isNamed hnamed q]

theorem read_respelled (stands : fs.StandsAt cwd base) (relative : p.isAbsolute = false)
    (nonempty : p.bytes ≠ []) (lengths : p.LengthsAgree (base.join p)) :
    fs.read cwd (base.join p) = fs.read cwd p := by
  have hfollow : fs.follow cwd (base.join p) = fs.follow cwd p :=
    followTo_joined stands relative nonempty lengths
  rw [read, read, hfollow]

theorem follow_too_long (fs : FileSystem) (cwd : Location) (long : maxPath ≤ p.bytes.length) :
    ∃ fault, fs.follow cwd p = .failed fault := by
  unfold follow followTo
  by_cases hzero : 0 ∈ p.bytes
  · exact ⟨_, by rw [if_pos hzero]⟩
  · exact ⟨_, by rw [if_neg hzero, if_pos long]⟩

theorem read_too_long (long : maxPath ≤ p.bytes.length) (content : List UInt8) :
    fs.read cwd p ≠ .ok content := by
  obtain ⟨fault, hfailed⟩ := follow_too_long fs cwd long
  simp [read, hfailed, Walk.toExcept, Except.map]

theorem not_isPresent_too_long (long : maxPath ≤ p.bytes.length) : fs.isPresent cwd p = false := by
  obtain ⟨fault, hfailed⟩ := follow_too_long fs cwd long
  rw [isPresent, hfailed]
  rfl

/-- The path of the working directory with a slash at its end names a directory. -/
theorem read_directory (stands : fs.StandsAt cwd base) (empty : p.bytes = [])
    (content : List UInt8) : fs.read cwd (base.join p) ≠ .ok content := by
  have hrelative : p.isAbsolute = false := by simp [isAbsolute, empty]
  have habsolute : (base.join p).isAbsolute = true := isAbsolute_join (isAbsolute_path stands.path)
  have hzero : 0 ∉ (base.join p).bytes := by
    rw [zero_mem_join stands.path stands.plain hrelative, empty]
    simp
  have hhops : (base.join p).hops = cwd.reverse ++ [[]] := by
    have hnames : p.names = [] := by simp [names, segments, empty]
    have hends : (base.join p).endsInSlash = true := by
      simp [endsInSlash, bytes_join stands.path stands.plain hrelative, empty]
    rw [hops, hends, names_join_path stands.path stands.plain hrelative, hnames, List.append_nil]
    rfl
  by_cases hlong : maxPath ≤ (base.join p).bytes.length
  · exact read_too_long hlong content
  · have hfound : fs.follow cwd (base.join p) = .found cwd := by
      obtain ⟨onLink, hwalk⟩ := @walk_eq_walkNames fs .find maxLinks
      have hwalked : fs.walk .find maxLinks [] (cwd.reverse ++ [[]]) = .found cwd := by
        rw [walk_through stands.proper stands.standing _ _ (by simp) (by simp), hwalk]
        simp [walkNames]
      unfold follow followTo
      rw [if_neg hzero, if_neg hlong, startOf_of_isAbsolute habsolute,
        if_neg (by simp [bytes_ne_nil_of_isAbsolute habsolute, isStanding]), hhops, hwalked]
    simp [read, hfound, get?_of_isStanding stands.standing]

end FileSystem

end LaunchPlan
