import LaunchPlan.Proofs.FileSystem.Absolute
import LaunchPlan.Proofs.FileSystem.Growth

/-!
Two paths that come to the same, each read in a working directory of its own. Main statements:
`SameWay.rooted`, an absolute path comes to the same wherever it is read, and `SameWay.settle` and
`SameWay.copy`, no question about such paths and no copy between them tells one from the other.
-/

namespace LaunchPlan.FileSystem

/-- Two paths lead the same way, whatever for and whatever files are added, and are spelled out
alike. -/
structure SameWay (fs : FileSystem) (cwd cwd' : Location) (p p' : Path) : Prop where
  followTo : ∀ aim {later : FileSystem}, fs.Grows later →
    later.followTo aim cwd p = later.followTo aim cwd' p'
  absolute : absolute cwd p = FileSystem.absolute cwd' p'
  start : (startOf cwd p).isNamed = (startOf cwd' p').isNamed

variable {fs : FileSystem} {cwd cwd' : Location} {p p' q q' : Path}

theorem workingPath_error (unnamed : cwd.isNamed = false) : workingPath cwd = .error .notFound := by
  simp [workingPath, Location.path?, unnamed]

theorem absolute_of_isAbsolute (h : p.isAbsolute = true) :
    absolute cwd p = .ok (p.absoluteFrom .root) := by
  rw [absolute, if_neg (Path.bytes_ne_nil_of_isAbsolute h), if_pos h]

theorem isAbsolute_absolute (h : absolute cwd p = .ok q) : q.isAbsolute = true := by
  obtain ⟨-, base, hpath, rfl⟩ := absolute_eq_ok_iff.1 h
  exact Path.isAbsolute_absoluteFrom (Location.isAbsolute_path hpath)

theorem isAbsolute_settle (h : fs.settle cwd p = .ok q) : q.isAbsolute = true := by
  unfold settle at h
  split at h
  · exact isAbsolute_canonical h
  · exact isAbsolute_absolute h

namespace SameWay

/-- An absolute path comes to the same wherever it is read. -/
theorem rooted (h : p.isAbsolute = true) : fs.SameWay cwd cwd' p p where
  followTo aim later _ := by
    simp only [FileSystem.followTo, startOf_of_isAbsolute h]
  absolute := by rw [absolute_of_isAbsolute h, absolute_of_isAbsolute h]
  start := by rw [startOf_of_isAbsolute h, startOf_of_isAbsolute h]

theorem refl (fs : FileSystem) (cwd : Location) (p : Path) : fs.SameWay cwd cwd p p :=
  ⟨fun _ _ _ => rfl, rfl, rfl⟩

theorem later {after : FileSystem} (h : fs.SameWay cwd cwd' p p') (grows : fs.Grows after) :
    after.SameWay cwd cwd' p p' where
  followTo aim _ more := h.followTo aim (grows.trans more)
  absolute := h.absolute
  start := h.start

theorem follow (h : fs.SameWay cwd cwd' p p') : fs.follow cwd p = fs.follow cwd' p' :=
  h.followTo .find .refl

theorem isPresent (h : fs.SameWay cwd cwd' p p') : fs.isPresent cwd p = fs.isPresent cwd' p' := by
  rw [FileSystem.isPresent, FileSystem.isPresent, h.follow]

theorem isDirectory (h : fs.SameWay cwd cwd' p p') :
    fs.isDirectory cwd p = fs.isDirectory cwd' p' := by
  rw [FileSystem.isDirectory, FileSystem.isDirectory, h.follow]

theorem list (h : fs.SameWay cwd cwd' p p') : fs.list cwd p = fs.list cwd' p' := by
  unfold FileSystem.list openDirectory
  rw [h.follow]

theorem openFile (h : fs.SameWay cwd cwd' p p') : fs.openFile cwd p = fs.openFile cwd' p' := by
  rw [FileSystem.openFile, FileSystem.openFile, h.follow]

theorem writePlace (h : fs.SameWay cwd cwd' p p') :
    fs.writePlace cwd p = fs.writePlace cwd' p' := by
  rw [FileSystem.writePlace, FileSystem.writePlace, h.followTo .make .refl]

theorem copy (source : fs.SameWay cwd cwd' p p') (target : fs.SameWay cwd cwd' q q') :
    fs.copy cwd p q = fs.copy cwd' p' q' := by
  rw [FileSystem.copy, FileSystem.copy, source.openFile, target.writePlace]

theorem canonical (h : fs.SameWay cwd cwd' p p') : fs.canonical cwd p = fs.canonical cwd' p' := by
  unfold FileSystem.canonical
  rw [h.followTo .name .refl]
  cases hnamed : (startOf cwd p).isNamed with
  | true =>
    obtain ⟨base, hbase⟩ := workingPath_ok_iff.2 hnamed
    obtain ⟨base', hbase'⟩ := workingPath_ok_iff.2 (h.start ▸ hnamed)
    rw [hbase, hbase']
    rfl
  | false =>
    rw [workingPath_error hnamed, workingPath_error (h.start ▸ hnamed)]

theorem settle (h : fs.SameWay cwd cwd' p p') : fs.settle cwd p = fs.settle cwd' p' := by
  rw [FileSystem.settle, FileSystem.settle, h.isPresent, h.canonical, h.absolute]

end SameWay

end LaunchPlan.FileSystem
