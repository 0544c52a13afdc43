import LaunchPlan.Proofs.FileSystem.Respelled
import LaunchPlan.Proofs.Preparation.Outcome

/-!
The settled form of a path. Main statements: `absoluteFrom_absoluteFrom`, a path that was made
absolute stays as it is, `settle_present`, what is present settles to the path of its place unless
it is looked up by one that is too long, and `settle_keeps`, the settled form leads where the path led
and is settled itself.
-/

namespace LaunchPlan

namespace Path

variable {p q r : Path} {name : Name} {names : List Name}

/-- A root, as a path is read from it: one slash, or two. -/
def IsRoot (r : Path) : Prop := r = root ∨ r = ⟨[slash, slash]⟩

/-- A path goes on after a root, but with no slash. -/
def StartsAt (r q : Path) : Prop := ∃ more, q.bytes = r.bytes ++ more ∧ more.head? ≠ some slash

theorem IsRoot.endsInSlash (h : r.IsRoot) : r.endsInSlash = true := by
  rcases h with rfl | rfl
  · decide
  · decide

theorem IsRoot.names_eq (h : r.IsRoot) : r.names = [] := by
  rcases h with rfl | rfl
  · decide
  · decide

theorem IsRoot.isAbsolute (h : r.IsRoot) : r.isAbsolute = true := by
  rcases h with rfl | rfl
  · decide
  · decide

theorem StartsAt.join (h : r.StartsAt q) (root : r.IsRoot) (hslash : slash ∉ name) :
    r.StartsAt (q.join ⟨name⟩) := by
  obtain ⟨more, hbytes, hhead⟩ := h
  have hname : name.head? ≠ some slash := fun hfirst => hslash (List.mem_of_head? hfirst)
  rw [join_relative q (isAbsolute_of_notMem hslash)]
  cases more with
  | nil =>
    obtain rfl : q = r := congrArg Path.mk (hbytes.trans (List.append_nil _))
    refine ⟨name, ?_, hname⟩
    simp [opened, root.endsInSlash]
  | cons b rest =>
    have hopened : ∃ after, q.opened = q.bytes ++ after := by
      unfold opened
      split
      · exact ⟨[], (List.append_nil _).symm⟩
      · exact ⟨[slash], rfl⟩
    obtain ⟨after, hafter⟩ := hopened
    refine ⟨b :: (rest ++ after ++ name), ?_, by simpa using hhead⟩
    simp [hafter, hbytes]

theorem StartsAt.extend (h : r.StartsAt q) (root : r.IsRoot) (hslash : ∀ name ∈ names, slash ∉ name) :
    r.StartsAt (q.extend names) := by
  induction names generalizing q with
  | nil => exact h
  | cons name rest ih =>
    exact ih (h.join root (hslash name List.mem_cons_self))
      fun other hother => hslash other (List.mem_cons_of_mem _ hother)

theorem StartsAt.anchor (h : r.StartsAt q) (root : r.IsRoot) (base : Path) : q.anchor base = r := by
  obtain ⟨more, hbytes, hhead⟩ := h
  have hstart : q.isAbsolute = true := by
    rcases root with rfl | rfl
    · simp [isAbsolute, hbytes, Path.root]
    · simp [isAbsolute, hbytes]
  have hdouble : q.hasDoubleRoot = true ↔ r = ⟨[slash, slash]⟩ := by
    rcases root with rfl | rfl
    · cases more with
      | nil => simp [hasDoubleRoot, hbytes, Path.root]
      | cons b rest =>
        have hb : b ≠ slash := by simpa using hhead
        simp [hasDoubleRoot, hbytes, Path.root, hb]
    · simp [hasDoubleRoot, hbytes, hhead]
  unfold Path.anchor
  rw [hstart, if_pos rfl]
  split
  · next h => exact (hdouble.1 h).symm
  · next h => exact (root.resolve_right fun hr => h (hdouble.2 hr)).symm

theorem endsInSlash_join_empty (nonempty : p.bytes ≠ []) : (p.join empty).endsInSlash = true := by
  rw [join_relative p rfl, opened]
  split
  · next hopen =>
    have hslash : p.endsInSlash = true := hopen.resolve_left nonempty
    simpa [empty] using hslash
  · simp [endsInSlash, empty]

theorem extend_append (p : Path) (names more : List Name) :
    p.extend (names ++ more) = (p.extend names).extend more := by
  simp only [extend, List.foldl_append]

/-- What is spelled out from a root, without names that go nowhere, is as absolute as it can be. -/
theorem absoluteFrom_extend (root : r.IsRoot)
    (plain : ∀ name ∈ names, name ≠ [] ∧ name ≠ dot ∧ slash ∉ name) (slashed : Bool)
    (base : Path) :
    let q := r.extend (names ++ if slashed then [[]] else [])
    q.absoluteFrom base = q := by
  intro q
  have hstarts : r.StartsAt q := by
    refine StartsAt.extend ⟨[], by simp, by simp⟩ root fun name hname => ?_
    rcases List.mem_append.1 hname with hname | hname
    · exact (plain name hname).2.2
    · cases slashed with
      | false => simp at hname
      | true =>
        obtain rfl : name = [] := by simpa using hname
        simp
  have hwhole : (r.extend names).names = names := by
    rw [names_extend r (fun name hname => (plain name hname).1)
      (fun name hname => (plain name hname).2.2), root.names_eq, List.nil_append]
  have hfilter : names.filter (· ≠ dot) = names := by
    rw [List.filter_eq_self]
    intro name hname
    simpa using (plain name hname).2.1
  cases slashed with
  | true =>
    have hq : q = (r.extend names).join empty := extend_append r names [[]]
    have hslash : q.endsInSlash = true := by
      rw [hq]
      exact endsInSlash_join_empty (bytes_ne_nil_of_isAbsolute (isAbsolute_extend root.isAbsolute names))
    have hnames : q.names = names := by
      rw [hq, names_join _ rfl, names_empty, List.append_nil, hwhole]
    rw [absoluteFrom_eq, hstarts.anchor root base, hnames, hfilter, hslash, hq]
    rfl
  | false =>
    have hq : q = r.extend names := by simp [q]
    rw [absoluteFrom_eq, hstarts.anchor root base, hq, hwhole, hfilter]
    rcases List.eq_nil_or_concat names with rfl | ⟨front, last, rfl⟩
    · have hjoin : r.join empty = r := by
        rcases root with rfl | rfl
        · decide
        · decide
      simp [extend, root.endsInSlash, hjoin]
    · obtain ⟨hne, -, hslash⟩ := plain last (by simp)
      have hends : (r.extend (front ++ [last])).endsInSlash = false := by
        rw [extend_append]
        exact not_endsInSlash_join _ hne hslash
      rw [List.concat_eq_append]
      simp only [hends]
      rfl

theorem absoluteFrom_eq_extend (p base : Path) :
    p.absoluteFrom base = (p.anchor base).extend
      (p.names.filter (· ≠ dot) ++ if p.endsInSlash then [[]] else []) := by
  rw [absoluteFrom_eq]
  cases p.endsInSlash with
  | true =>
    rw [if_pos rfl, if_pos rfl, extend_append]
    rfl
  | false => simp

/-- Made absolute, a path ends in a slash if it did before, unless all its names were dots. -/
theorem endsInSlash_absoluteFrom {folder : List Name} (last : p.names = folder ++ [name])
    (notDot : name ≠ dot) {base : Path} (habsolute : base.isAbsolute = true) :
    (p.absoluteFrom base).endsInSlash = p.endsInSlash := by
  have hname : name ∈ p.names := by simp [last]
  have hfilter : p.names.filter (· ≠ dot) = folder.filter (· ≠ dot) ++ [name] := by
    rw [last, List.filter_append]
    simp [notDot]
  rw [absoluteFrom_eq, hfilter, extend_append]
  cases p.endsInSlash with
  | true =>
    rw [if_pos rfl]
    exact endsInSlash_join_empty (bytes_ne_nil_of_isAbsolute
      (isAbsolute_extend (isAbsolute_extend (isAbsolute_anchor habsolute) _) _))
  | false => exact not_endsInSlash_join _ (nonempty_of_mem_names hname) (slash_notMem_of_mem_names hname)

theorem hops_eq (p : Path) : p.hops = p.names ++ if p.endsInSlash then [[]] else [] := by
  unfold hops
  split
  · rfl
  · rw [List.append_nil]

end Path

namespace Location

open LaunchPlan.Path

variable {place : Location} {base : Path}

/-- A place is reached from a root through names that can be spelled. -/
theorem spelled_of_proper (proper : ∀ name ∈ place, name.IsProper) :
    ∀ name ∈ place.reverse, name ≠ [] ∧ name ≠ dot ∧ slash ∉ name := by
  intro name hname
  have hproper : name.IsProper := proper name (List.mem_reverse.1 hname)
  exact ⟨hproper.nonempty, hproper.notDot, hproper.plain.2⟩

/-- The path of a place is as absolute as it can be. -/
theorem absoluteFrom_path (here : place.path? = some base)
    (proper : ∀ name ∈ place, name.IsProper) (other : Path) : base.absoluteFrom other = base := by
  have hspelled := absoluteFrom_extend (.inl rfl) (spelled_of_proper proper) false other
  simp only [Bool.false_eq_true, if_false, List.append_nil] at hspelled
  rwa [extend_root here fun name hname => (proper name hname).plain] at hspelled

/-- A path that was made absolute once stays as it is. -/
theorem absoluteFrom_absoluteFrom (here : place.path? = some base)
    (proper : ∀ name ∈ place, name.IsProper) (p other : Path) :
    (p.absoluteFrom base).absoluteFrom other = p.absoluteFrom base := by
  obtain ⟨r, front, hroot, hfront, hanchor⟩ : ∃ r front, IsRoot r ∧
      (∀ name ∈ front, name ≠ [] ∧ name ≠ dot ∧ slash ∉ name) ∧ p.anchor base = r.extend front := by
    cases hp : p.isAbsolute with
    | true =>
      refine ⟨p.anchor base, [], ?_, by simp, rfl⟩
      unfold anchor
      split
      · exact .inr rfl
      · exact .inl rfl
    | false =>
      refine ⟨root, place.reverse, .inl rfl, spelled_of_proper proper, ?_⟩
      rw [anchor_of_relative hp, extend_root here fun name hname => (proper name hname).plain]
  have hplain : ∀ name ∈ front ++ p.names.filter (· ≠ dot), name ≠ [] ∧ name ≠ dot ∧ slash ∉ name := by
    intro name hname
    rcases List.mem_append.1 hname with hname | hname
    · exact hfront name hname
    · obtain ⟨hmem, hdot⟩ := List.mem_filter.1 hname
      exact ⟨nonempty_of_mem_names hmem, by simpa using hdot, slash_notMem_of_mem_names hmem⟩
  have hspelled := absoluteFrom_extend hroot hplain p.endsInSlash other
  rw [absoluteFrom_eq_extend p base, hanchor, ← extend_append, ← List.append_assoc]
  exact hspelled

end Location

namespace Sample

def edgeEntries : List (Location × Entry) :=
  [(Text.encode "ddd" :: brink, .directory), (brink, .directory)] ++ stairs 15

/-- Files with a directory whose path is as long as a path can be. -/
def edge : FileSystem := { entries := edgeEntries, fits := by decide +kernel, bars := [] }

end Sample

namespace FileSystem

variable {fs : FileSystem} {cwd here place : Location} {p q : Path} {names fewer : List Name}
  {name : Name}

/-- How long the paths are by which a walk along `names` looks up what is there. -/
def namesLengths (fs : FileSystem) (onLink : Location → Path → List Name → List Nat) :
    Location → List Name → List Nat
  | _, [] => []
  | here, name :: rest =>
    if name = [] ∨ name = Path.dot then namesLengths fs onLink here rest
    else if name = Path.dotDot then namesLengths fs onLink here.tail rest
    else
      fs.lookupLength (name :: here) rest ::
        match fs.get? (name :: here) with
        | some .directory => namesLengths fs onLink (name :: here) rest
        | some (.link target) => onLink here target rest
        | _ => []

def walkLengths (fs : FileSystem) : Nat → Location → List Name → List Nat
  | 0 => namesLengths fs fun _ _ _ => []
  | links + 1 => namesLengths fs fun here target rest =>
      walkLengths fs links (startOf here target) (target.hops ++ rest)

/-- How long the paths are by which the places on the way along a path are looked up, those of links
too. -/
def lookupLengths (fs : FileSystem) (cwd : Location) (p : Path) : List Nat :=
  fs.walkLengths maxLinks (startOf cwd p) p.hops

/-- Every path is short enough to be followed. -/
def AreShort (lengths : List Nat) : Prop := ∀ length ∈ lengths, length < maxPath

instance (lengths : List Nat) : Decidable (AreShort lengths) :=
  inferInstanceAs (Decidable (∀ length ∈ lengths, _))

theorem areShort_cons {length : Nat} {lengths : List Nat} :
    AreShort (length :: lengths) ↔ length < maxPath ∧ AreShort lengths :=
  List.forall_mem_cons

/-- How a walk ends that wants the path of the place where it would arrive. -/
def namedEnd (lengths : List Nat) (place : Location) : Walk :=
  if AreShort lengths then .found place else .failed .nameTooLong

theorem namedEnd_nil (place : Location) : namedEnd [] place = .found place :=
  if_pos (by simp [AreShort])

theorem walkNames_named {onFind onName : Location → Path → List Name → Walk}
    {onLink : Location → Path → List Name → List Nat}
    (link : ∀ here target rest, onFind here target rest = .found place →
      onName here target rest = namedEnd (onLink here target rest) place)
    (h : fs.walkNames .find onFind here names = .found place) :
    fs.walkNames .name onName here names = namedEnd (fs.namesLengths onLink here names) place := by
  induction names generalizing here with
  | nil =>
    cases h
    rfl
  | cons name rest ih =>
    simp only [walkNames, reduceCtorEq, false_and, if_false, true_and, namesLengths] at h ⊢
    split at h
    · next hstay =>
      rw [if_pos hstay, if_pos hstay]
      exact ih h
    next hgoes =>
    rw [if_neg hgoes, if_neg hgoes]
    split at h
    · next hup =>
      rw [if_pos hup, if_pos hup]
      exact ih h
    next hdown =>
    rw [if_neg hdown, if_neg hdown]
    split at h
    · cases h
    next hfits =>
    rw [if_neg hfits]
    -- From here on the walk goes on to the place, unless the path for that is too long.
    by_cases hlong : maxPath ≤ fs.lookupLength (name :: here) rest
    · rw [if_pos hlong, namedEnd, if_neg]
      rw [areShort_cons]
      omega
    have hshort : fs.lookupLength (name :: here) rest < maxPath := Nat.not_le.1 hlong
    have hnext (lengths : List Nat) :
        namedEnd (fs.lookupLength (name :: here) rest :: lengths) place
          = namedEnd lengths place := by
      simp only [namedEnd, areShort_cons, hshort, true_and]
    rw [if_neg hlong, hnext]
    cases hentry : fs.get? (name :: here) with
    | none => simp [hentry] at h
    | some entry =>
      simp only [hentry] at h
      cases entry with
      | directory => exact ih h
      | link target => exact link here target rest h
      | file _ _ | device =>
        simp only at h ⊢
        split at h
        · next hend =>
          cases h
          rw [if_pos hend, namedEnd_nil]
        · cases h

theorem walk_named {links : Nat} (h : fs.walk .find links here names = .found place) :
    fs.walk .name links here names = namedEnd (fs.walkLengths links here names) place := by
  induction links generalizing here names with
  | zero => exact walkNames_named (fun _ _ _ hlink => by cases hlink) h
  | succ links ih => exact walkNames_named (fun _ _ _ hlink => ih hlink) h

theorem followTo_named (h : fs.follow cwd p = .found place) :
    fs.followTo .name cwd p = namedEnd (fs.lookupLengths cwd p) place := by
  unfold follow followTo at h
  unfold followTo
  split at h
  · cases h
  next hzero =>
  split at h
  · cases h
  next hlong =>
  split at h
  · cases h
  next hstart =>
  rw [if_neg hzero, if_neg hlong, if_neg hstart]
  exact walk_named h

/-- What is found from a working directory that has a path has one, too. -/
theorem path_of_found (named : cwd.isNamed = true) (h : fs.follow cwd p = .found place) :
    ∃ q, place.path? = some q :=
  ⟨_, Location.path_of_isNamed (followTo_isNamed named h)⟩

/-- What is present settles to the path of its place, unless a path by which something on the way is
looked up is too long. -/
theorem settle_present (named : cwd.isNamed = true) (h : fs.follow cwd p = .found place) :
    fs.settle cwd p
      = if AreShort (fs.lookupLengths cwd p) then workingPath place else .error .nameTooLong := by
  have hpresent : fs.isPresent cwd p = true := isPresent_iff.2 ⟨place, h, follow_found h⟩
  obtain ⟨start, hstart⟩ := workingPath_ok_iff.2 (startOf_isNamed named p)
  rw [settle, if_pos hpresent, canonical, hstart, followTo_named h]
  by_cases hshort : AreShort (fs.lookupLengths cwd p)
  · simp only [namedEnd, if_pos hshort, Walk.toExcept, bind, Except.bind]
  · simp only [namedEnd, if_neg hshort, Walk.toExcept, bind, Except.bind]

/-- A slash can be one byte too many. -/
example :
    (Sample.edge.settle Sample.brink (.ofString "ddd")).isOk = true ∧
      Sample.edge.isPresent Sample.brink (.ofString "ddd/") = true ∧
      Sample.edge.settle Sample.brink (.ofString "ddd/") = .error .nameTooLong := by
  decide +kernel

theorem Undotted.append_right (h : Undotted names fewer) (after : List Name) :
    Undotted (names ++ after) (fewer ++ after) := by
  induction h with
  | nil => exact .refl after
  | cons name rest ih => exact .cons name ih
  | dot rest more ih => exact .dot ih (by simp [more])

/-- A path whose last name is no dot loses only dots before other names when it is spelled out. -/
theorem exists_undotted (grounded : fs.IsGrounded cwd)
    (last : ∃ name ∈ p.names.getLast?, name ≠ Path.dot) (absolute : absolute cwd p = .ok q) :
    ∃ fewer, Undotted p.hops fewer ∧ q.hops = (startOf cwd p).reverse ++ fewer := by
  obtain ⟨base, rfl, hbase, -, hstart⟩ := absolute_base grounded absolute
  obtain ⟨name, hlast, hdot⟩ := last
  obtain ⟨folder, hnames⟩ := List.getLast?_eq_some_iff.1 hlast
  refine ⟨folder.filter (· ≠ Path.dot) ++ [name] ++ if p.endsInSlash then [[]] else [], ?_, ?_⟩
  · rw [Path.hops_eq, hnames]
    exact (Undotted.of_filter folder name).append_right _
  · rw [Path.hops_eq, Path.endsInSlash_absoluteFrom hnames hdot hbase, Path.names_absoluteFrom,
      hstart, hnames, List.filter_append]
    simp [hdot]

/-- From everywhere, `q` leads to the entry that `p` leads to from `cwd`, if there is one. -/
structure StandsFor (fs : FileSystem) (cwd : Location) (p q : Path) : Prop where
  present : ∀ other, fs.isPresent other q = fs.isPresent cwd p
  leads : ∀ place, fs.follow cwd p = .found place → ∀ other, fs.follow other q = .found place

/-- The path of a place, without names that go elsewhere and without links. -/
structure IsBare (fs : FileSystem) (place : Location) (q : Path) : Prop where
  path : place.path? = some q
  names : q.names = place.reverse
  plain : ∀ name ∈ q.names, name ≠ Path.dot ∧ name ≠ Path.dotDot
  noLink : ∀ above, above <:+ place → ∀ target, fs.get? above ≠ some (.link target)

theorem IsEnd.noLink (h : fs.IsEnd place) {above : Location} (suffix : above <:+ place)
    (target : Path) : fs.get? above ≠ some (.link target) := by
  intro hlink
  obtain ⟨before, rfl⟩ := suffix
  cases before with
  | nil =>
    obtain ⟨entry, hentry, hother⟩ := h.entry
    rw [List.nil_append, hlink] at hentry
    exact hother target (Option.some.inj hentry).symm
  | cons name before =>
    have hdirectory := get?_of_isStanding (isStanding_of_append h.standing)
    rw [hdirectory] at hlink
    cases hlink

theorem isBare_of_found (h : fs.follow cwd p = .found place) (path : place.path? = some q) :
    fs.IsBare place q := by
  have hend := follow_found h
  have hproper : ∀ name ∈ place, name.IsProper := fun name hname =>
    hend.proper hname (Location.named_of_path path hname)
  have hnames := Location.names_path path fun name hname => (hproper name hname).plain
  refine ⟨path, hnames, ?_, fun above => hend.noLink⟩
  intro name hname
  rw [hnames, List.mem_reverse] at hname
  exact ⟨(hproper name hname).notDot, (hproper name hname).notDotDot⟩

/-- The path of a place where a walk may end is settled, also where it is too long to be
followed. -/
theorem settle_path (path : place.path? = some q) (h : fs.IsEnd place) (other : Location) :
    fs.settle other q = .ok q := by
  unfold settle
  by_cases hshort : q.bytes.length < maxPath
  · have hthere : fs.isPresent other q = true :=
      isPresent_iff.2 ⟨place, followTo_path (by decide) path h hshort other, h⟩
    rw [if_pos hthere]
    exact canonical_path path h hshort other
  · have hproper : ∀ name ∈ place, name.IsProper := fun name hname =>
      h.proper hname (Location.named_of_path path hname)
    rw [not_isPresent_too_long (Nat.not_lt.1 hshort), if_neg Bool.false_ne_true,
      absolute_of_isAbsolute (Location.isAbsolute_path path),
      Location.absoluteFrom_path path hproper]

theorem settle_canonical (canonical : fs.canonical cwd p = .ok q)
    (h : fs.follow cwd p = .found place) (other : Location) : fs.settle other q = .ok q := by
  obtain ⟨-, hpath⟩ := path_of_canonical canonical h
  exact settle_path hpath (follow_found h) other

/-- What was spelled out once is spelled out as it is. -/
theorem absolute_again (grounded : fs.IsGrounded cwd) (spelled : absolute cwd p = .ok q)
    (other : Location) : absolute other q = .ok q := by
  obtain ⟨hnamed, hstanding⟩ := start_of_absolute grounded spelled
  have hproper := proper_of_isNamed hnamed hstanding
  obtain ⟨-, base, hpath, rfl⟩ := absolute_eq_ok_iff.1 spelled
  rw [absolute_of_isAbsolute (Path.isAbsolute_absoluteFrom (Location.isAbsolute_path hpath)),
    Location.absoluteFrom_absoluteFrom hpath hproper]

theorem standsFor_of_found (h : fs.follow cwd p = .found place) (path : place.path? = some q)
    (short : q.bytes.length < maxPath) : fs.StandsFor cwd p q := by
  have hfollow (other : Location) : fs.follow other q = .found place :=
    followTo_path (by decide) path (follow_found h) short other
  constructor
  · intro other
    rw [isPresent, isPresent, hfollow, h]
  · intro found hfound other
    rw [hfollow, ← h, hfound]

/-- What is not present is not present by its absolute form either, if that is not shortened to a
path that can be followed. -/
theorem absent_of_absolute (grounded : fs.IsGrounded cwd)
    (last : ∃ name ∈ p.names.getLast?, name ≠ Path.dot) (absent : fs.isPresent cwd p = false)
    (spelled : absolute cwd p = .ok q) (long : maxPath ≤ p.bytes.length → maxPath ≤ q.bytes.length)
    (other : Location) : fs.isPresent other q = false := by
  by_cases hlong : maxPath ≤ q.bytes.length
  · exact not_isPresent_too_long hlong
  · obtain ⟨fewer, hdots, hhops⟩ := exists_undotted grounded last spelled
    have hsame := follow_spelled grounded spelled hdots hhops (by omega) other
    rw [isPresent, Walk.isFound_eq_isOk] at absent ⊢
    rw [hsame, absent]

/-- What is found settles to the path of its place, and that is settled. -/
theorem settle_found (named : cwd.isNamed = true) (h : fs.follow cwd p = .found place)
    (short : AreShort (fs.lookupLengths cwd p)) :
    ∃ q, fs.settle cwd p = .ok q ∧ q.isAbsolute = true ∧ fs.IsBare place q ∧
      (∀ other, fs.settle other q = .ok q) ∧ (q.bytes.length < maxPath → fs.StandsFor cwd p q) := by
  obtain ⟨q, hpath⟩ := path_of_found named h
  have hsettled : fs.settle cwd p = .ok q := by
    rw [settle_present named h, if_pos short, workingPath_eq_ok_iff.2 hpath]
  exact ⟨q, hsettled, Location.isAbsolute_path hpath, isBare_of_found h hpath,
    settle_path hpath (follow_found h), standsFor_of_found h hpath⟩

/-- What is not present settles to its spelling, and that is settled unless it was shortened to a path
that can be followed. -/
theorem settle_absent (named : cwd.isNamed = true) (standing : fs.isStanding cwd = true)
    (last : ∃ name ∈ p.names.getLast?, name ≠ Path.dot) (absent : fs.isPresent cwd p = false) :
    ∃ q, fs.settle cwd p = .ok q ∧ q.isAbsolute = true ∧
      ((maxPath ≤ p.bytes.length → maxPath ≤ q.bytes.length) →
        (∀ other, fs.settle other q = .ok q) ∧ fs.StandsFor cwd p q) := by
  have hnonempty : p.bytes ≠ [] := by
    intro hempty
    obtain ⟨name, hname, -⟩ := last
    simp [Path.names, Path.segments, hempty] at hname
  have hgrounded : fs.IsGrounded cwd := fun _ => standing
  obtain ⟨q, hspelled⟩ := (absolute_ok_iff hnonempty).2 (.inr named)
  refine ⟨q, ?_, isAbsolute_absolute hspelled, fun hlong => ⟨?_, ?_⟩⟩
  · rw [settle, absent, if_neg Bool.false_ne_true, hspelled]
  · intro other
    rw [settle, absent_of_absolute hgrounded last absent hspelled hlong other,
      if_neg Bool.false_ne_true]
    exact absolute_again hgrounded hspelled other
  · constructor
    · intro other
      rw [absent_of_absolute hgrounded last absent hspelled hlong other, absent]
    · intro place hfound
      rw [isPresent, hfound] at absent
      cases absent

/-- A path that is present, or whose last name is no dot, settles to an absolute path that is settled
itself and leads where it led, through no dots and no links. All of it holds up to the length that a
path may have: what is present may have a path that is too long to be followed, or be looked up by
such a path on its way. -/
theorem settle_keeps (named : cwd.isNamed = true) (standing : fs.isStanding cwd = true)
    (ordinary : fs.isPresent cwd p = true ∨ ∃ name ∈ p.names.getLast?, name ≠ Path.dot) :
    (fs.isPresent cwd p = true → ¬AreShort (fs.lookupLengths cwd p) →
      fs.settle cwd p = .error .nameTooLong) ∧
    ((fs.isPresent cwd p = true → AreShort (fs.lookupLengths cwd p)) →
      ∃ q, fs.settle cwd p = .ok q ∧ q.isAbsolute = true ∧
        (∀ place, fs.follow cwd p = .found place → fs.IsBare place q) ∧
        ((maxPath ≤ p.bytes.length → maxPath ≤ q.bytes.length) →
          (∀ other, fs.settle other q = .ok q) ∧
          ((fs.isPresent cwd p = true → q.bytes.length < maxPath) → fs.StandsFor cwd p q))) := by
  refine ⟨?tooLong, ?settled⟩
  case tooLong =>
    intro hpresent hlong
    obtain ⟨place, hfound, -⟩ := isPresent_iff.1 hpresent
    rw [settle_present named hfound, if_neg hlong]
  case settled =>
    intro hshort
    cases hpresent : fs.isPresent cwd p with
    | true =>
      obtain ⟨place, hfound, -⟩ := isPresent_iff.1 hpresent
      obtain ⟨q, hsettled, habsolute, hbare, hagain, hstands⟩ :=
        settle_found named hfound (hshort hpresent)
      refine ⟨q, hsettled, habsolute, ?_, fun _ => ⟨hagain, fun hshort => hstands (hshort rfl)⟩⟩
      intro other hother
      obtain rfl : place = other := by
        rw [hfound] at hother
        exact Walk.found.inj hother
      exact hbare
    | false =>
      obtain ⟨q, hsettled, habsolute, hkept⟩ := settle_absent named standing
        (ordinary.resolve_left (by simp [hpresent])) hpresent
      refine ⟨q, hsettled, habsolute, ?_, fun hlong => ?_⟩
      · intro place hfound
        rw [isPresent, hfound] at hpresent
        cases hpresent
      · obtain ⟨hagain, hstands⟩ := hkept hlong
        exact ⟨hagain, fun _ => hstands⟩

end FileSystem

namespace Sample

/-- A root directory with the deployment of one machine and a link to its directory. -/
def linked : FileSystem :=
  files [image, (place ["l"], .link (.ofString "d/./m"))] (by decide +kernel)

/-- The path of a directory after `n` dots. -/
def dotted : Nat → Path
  | 0 => .ofString "d"
  | n + 1 => Path.join ⟨Path.dot⟩ (dotted n)

theorem dotted_spec (n : Nat) :
    (dotted n).isAbsolute = false ∧ (dotted n).bytes.length = 2 * n + 1 ∧
      (dotted n).names.getLast? = some (Text.encode "d") ∧
      (dotted n).absoluteFrom .root = .ofString "/d" := by
  induction n with
  | zero => decide
  | succ n ih =>
    obtain ⟨hrelative, hlength, hlast, habsolute⟩ := ih
    have hnonempty : (dotted n).bytes ≠ [] := List.ne_nil_of_length_pos (by omega)
    refine ⟨Path.isAbsolute_dotted hrelative, ?_, ?_, ?_⟩
    · rw [dotted, Path.bytes_dotted hrelative, List.length_append, List.length_cons, hlength]
      show 1 + (2 * n + 1 + 1) = _
      omega
    · rw [dotted, Path.names_dotted hrelative, List.getLast?_cons, hlast]
      rfl
    · rw [dotted, Path.absoluteFrom_dotted hrelative hnonempty, habsolute]

end Sample

namespace FileSystem

theorem settle_keeps_sample :
    (Sample.linked.settle [] (.ofString "l/../m/./i-m.wic") = .ok (.ofString "/d/m/i-m.wic") ∧
      Sample.linked.StandsFor [] (.ofString "l/../m/./i-m.wic") (.ofString "/d/m/i-m.wic")) ∧
    Sample.linked.settle [] (.ofString "l/../m//./x/") = .ok (.ofString "/l/../m/x/") ∧
      Sample.linked.StandsFor [] (.ofString "l/../m//./x/") (.ofString "/l/../m/x/") := by
  have hroot : Location.isNamed [] = true := rfl
  constructor
  · obtain ⟨-, hsettled⟩ := @settle_keeps Sample.linked []
      (.ofString "l/../m/./i-m.wic") hroot rfl (.inl (by decide +kernel))
    obtain ⟨q, hq, -, -, hkept⟩ := hsettled fun _ => by decide +kernel
    obtain rfl : q = .ofString "/d/m/i-m.wic" := Except.ok.inj (hq.symm.trans (by decide +kernel))
    exact ⟨hq, (hkept (by decide +kernel)).2 fun _ => by decide +kernel⟩
  · obtain ⟨-, hsettled⟩ := @settle_keeps Sample.linked []
      (.ofString "l/../m//./x/") hroot rfl
      (.inr ⟨Text.encode "x", by decide +kernel, by decide +kernel⟩)
    obtain ⟨q, hq, -, -, hkept⟩ := hsettled fun _ => by decide +kernel
    obtain rfl : q = .ofString "/l/../m/x/" := Except.ok.inj (hq.symm.trans (by decide +kernel))
    exact ⟨hq, (hkept (by decide +kernel)).2 fun _ => by decide +kernel⟩

/-- The length of a path makes a difference. In a deep directory what is present may have no settled
form, or one that is too long to be followed. What is not present, for a path that is too long, may
have one that leads to something. -/
theorem settle_loses_by_length :
    (¬∀ (fs : FileSystem) (cwd : Location) (p : Path), cwd.isNamed = true →
      fs.isStanding cwd = true → fs.isPresent cwd p = true → ∃ q, fs.settle cwd p = .ok q) ∧
    (¬∀ (fs : FileSystem) (cwd : Location) (p q : Path), cwd.isNamed = true →
      fs.isStanding cwd = true → fs.isPresent cwd p = true → fs.settle cwd p = .ok q →
      fs.isPresent cwd q = true) ∧
    ¬∀ (fs : FileSystem) (cwd : Location) (p q : Path), cwd.isNamed = true →
      fs.isStanding cwd = true → p.names.getLast? = some (Text.encode "d") →
      fs.settle cwd p = .ok q → fs.isPresent cwd q = fs.isPresent cwd p := by
  refine ⟨?_, ?_, ?_⟩
  · intro hclaim
    obtain ⟨q, hq⟩ := hclaim Sample.deep.files Sample.deep.cwd (.ofString "m/v-m.wic")
      (by decide +kernel) (by decide +kernel) (by decide +kernel)
    have hfailed : Sample.deep.files.settle Sample.deep.cwd (.ofString "m/v-m.wic")
        = .error .nameTooLong := by
      decide +kernel
    cases hfailed.symm.trans hq
  · intro hclaim
    have hnamed : Sample.deep.cwd.isNamed = true := by decide +kernel
    have hfound : Sample.deep.files.follow Sample.deep.cwd (.ofString ".")
        = .found Sample.deep.cwd := by
      decide +kernel
    obtain ⟨q, hpath⟩ := path_of_found hnamed hfound
    have hsettled : Sample.deep.files.settle Sample.deep.cwd (.ofString ".") = .ok q := by
      rw [settle_present hnamed hfound, if_pos (by decide +kernel), workingPath_eq_ok_iff.2 hpath]
    have hlong : maxPath ≤ q.bytes.length := by
      rw [Location.length_path hpath (by decide)]
      decide +kernel
    have hpresent := hclaim Sample.deep.files Sample.deep.cwd (.ofString ".") q
      hnamed (by decide +kernel) (by decide +kernel) hsettled
    rw [not_isPresent_too_long hlong] at hpresent
    cases hpresent
  · intro hclaim
    obtain ⟨hrelative, hlength, hlast, habsolute⟩ := Sample.dotted_spec 2048
    have habsent : Sample.complete.files.isPresent [] (Sample.dotted 2048) = false :=
      not_isPresent_too_long (by rw [hlength]; decide)
    have hnonempty : (Sample.dotted 2048).bytes ≠ [] := List.ne_nil_of_length_pos (by omega)
    have hsettled : Sample.complete.files.settle [] (Sample.dotted 2048) = .ok (.ofString "/d") := by
      rw [settle, habsent, if_neg Bool.false_ne_true, absolute, if_neg hnonempty,
        if_neg (by simp [hrelative]), ← habsolute]
      rfl
    have hsame := hclaim Sample.complete.files [] _ _ rfl rfl hlast hsettled
    rw [habsent] at hsame
    revert hsame
    decide +kernel

end FileSystem

end LaunchPlan
