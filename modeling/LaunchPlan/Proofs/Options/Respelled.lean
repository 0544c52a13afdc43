import LaunchPlan.Proofs.FileSystem.Respelled
import LaunchPlan.Proofs.Options.Load

/-!
Options from a file that is named in two ways: by a relative path, and by the same path after that
of the working directory. Main statements: `load_respelled_iff`, both are read unless the longer
name is too long, and `load_respelled`, what is read differs in the directory that paths are read
from.
-/

namespace LaunchPlan.Options

open LaunchPlan.Path Location

variable {h : Host} {base path : Path} {o o' w : Options}

theorem written_ok_iff : written h path = .ok w ↔
    ∃ content text, h.files.read h.cwd path = .ok content ∧ Text.decode? content = some text ∧
      ofYaml text = .ok w := by
  unfold written
  cases h.files.read h.cwd path with
  | error fault => simp
  | ok content =>
    cases hdecode : Text.decode? content with
    | none => simp [hdecode]
    | some text => cases hyaml : ofYaml text <;> simp [hdecode, hyaml]

theorem load_ok_iff : (∃ o, load h path = .ok o) ↔ ∃ w, written h path = .ok w := by
  rw [load_eq]
  cases written h path with
  | error fault => simp [Except.map]
  | ok w => simp [Except.map]

/-- What a file says does not depend on how the file is named, unless a name is too long. -/
theorem written_respelled (stands : h.files.StandsAt h.cwd base)
    (relative : path.isAbsolute = false) : written h (base.join path) = .ok w ↔
      written h path = .ok w ∧ (base.join path).bytes.length < FileSystem.maxPath := by
  have hlength := length_join stands.path stands.plain relative
  rw [written_ok_iff, written_ok_iff]
  by_cases hempty : path.bytes = []
  · have hidle : Path.AreIdle path.segments := by simp [Path.AreIdle, segments, hempty]
    obtain ⟨fault, hfault⟩ := h.files.read_idle h.cwd hidle
    simp [hfault, FileSystem.read_directory stands hempty]
  by_cases hshort : (base.join path).bytes.length < FileSystem.maxPath
  · have hlengths : path.LengthsAgree (base.join path) := by
      unfold Path.LengthsAgree
      omega
    rw [FileSystem.read_respelled stands relative hempty hlengths]
    simp [hshort]
  · simp [hshort, FileSystem.read_too_long (Nat.not_lt.1 hshort)]

/-- Options are read from a file whichever way it is named, unless that is too long. -/
theorem load_respelled_iff (stands : h.files.StandsAt h.cwd base)
    (relative : path.isAbsolute = false) :
    (∃ o', load h (base.join path) = .ok o') ↔
      (∃ o, load h path = .ok o) ∧ (base.join path).bytes.length < FileSystem.maxPath := by
  rw [load_ok_iff, load_ok_iff]
  simp only [written_respelled stands relative]
  constructor
  · rintro ⟨w, hwritten, hshort⟩
    exact ⟨⟨w, hwritten⟩, hshort⟩
  · rintro ⟨⟨w, hwritten⟩, hshort⟩
    exact ⟨w, hwritten, hshort⟩

theorem load_of_parent {front : Path} (spelled : written h path = .ok w)
    (parent : path.parent? = some front) : load h path = .ok (w.rebase front) := by
  rw [load_eq, spelled, parent]
  rfl

/-- What is read from a file that is named in two ways, as what it says and two directory parts. -/
theorem load_respelled (stands : h.files.StandsAt h.cwd base) (relative : path.isAbsolute = false)
    (loaded : load h path = .ok o) (loaded' : load h (base.join path) = .ok o') :
    ∃ w front other, written h path = .ok w ∧ o = w.rebase front ∧ o' = w.rebase other ∧
      ReadsFromBoth base front other := by
  obtain ⟨w, hwritten⟩ := load_ok_iff.1 ⟨o, loaded⟩
  obtain ⟨-, hshort⟩ := (load_respelled_iff stands relative).1 ⟨o', loaded'⟩
  have hwritten' := (written_respelled stands relative).2 ⟨hwritten, hshort⟩
  obtain ⟨front, other, hfront, hother, hreads⟩ :=
    parent_join stands.path stands.proper relative (not_idle_of_written hwritten)
  refine ⟨w, front, other, hwritten, ?_, ?_, hreads⟩
  · exact Except.ok.inj (loaded.symm.trans (load_of_parent hwritten hfront))
  · exact Except.ok.inj (loaded'.symm.trans (load_of_parent hwritten' hother))

end LaunchPlan.Options
