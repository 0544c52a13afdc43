import LaunchPlan.Text.Quoted

/-!
Paths as byte strings, and the operations on them that look at no file system. A path is kept as
it was spelled: joining and cutting change nothing else in it, only `absoluteFrom` drops what has
no effect. Main statements: `join_of_isAbsolute`, `isAbsolute_join`, and `eq_of_display`, a path that
is text can be told by what it shows.
-/

namespace LaunchPlan

abbrev Name := List UInt8

structure Path where
  bytes : List UInt8
  deriving DecidableEq

namespace Path

def slash : UInt8 := 0x2F

def dot : Name := [0x2E]

def dotDot : Name := [0x2E, 0x2E]

def tilde : Name := [0x7E]

def ofString (s : String) : Path := ⟨Text.encode s⟩

def empty : Path := ⟨[]⟩

def root : Path := ⟨[slash]⟩

/-- The path as text; bytes that spell no character show as replacement characters. -/
def display (p : Path) : String := Text.display p.bytes

def text? (p : Path) : Option String := Text.decode? p.bytes

def quote (p : Path) : String := Text.quoteBytes p.bytes

def isAbsolute (p : Path) : Bool := p.bytes.head? = some slash

def endsInSlash (p : Path) : Bool := p.bytes.getLast? = some slash

/-- `p` followed by `q`; an absolute `q` stands alone, and a slash separates them unless `p` is
empty or ends in one. -/
def join (p q : Path) : Path :=
  if q.isAbsolute then q
  else if p.bytes = [] ∨ p.endsInSlash then ⟨p.bytes ++ q.bytes⟩
  else ⟨p.bytes ++ slash :: q.bytes⟩

/-- `p` with more text at its end, without a separator. -/
def withSuffix (p : Path) (suffix : String) : Path := ⟨p.bytes ++ Text.encode suffix⟩

/-- The stretches between slashes, empty ones included. -/
def segments (p : Path) : List Name := p.bytes.splitOn slash

/-- The names that a path goes through. -/
def names (p : Path) : List Name := p.segments.filter (· ≠ [])

/-- The names that a walk along the path takes. A slash at the end is one more, empty name: it
demands a directory and goes nowhere. -/
def hops (p : Path) : List Name :=
  if p.endsInSlash then p.names ++ [[]] else p.names

def ofSegments (segs : List Name) : Path := ⟨List.intercalate [slash] segs⟩

/-- Segments at the end that name nothing are dropped. -/
def trimSegments (segs : List Name) : List Name :=
  (segs.reverse.dropWhile fun s => s = [] ∨ s = dot).reverse

/-- The segments after the first one when that one is kept whatever follows: the empty stretch
before a leading slash, or a leading dot. -/
def splitAnchor : List Name → List Name × List Name
  | s :: rest => if s = dot ∨ (s = [] ∧ rest ≠ []) then ([s], rest) else ([], s :: rest)
  | [] => ([], [])

/-- The path without its last name. What separates the rest from that name goes too; a root has no
parent. -/
def parent? (p : Path) : Option Path :=
  let (anchor, body) := splitAnchor p.segments
  match (trimSegments body).reverse, anchor with
  | [], [[]] => none
  | [], [] => none
  | [], _ => some empty
  | _ :: before, [[]] =>
    match trimSegments before.reverse with
    | [] => some root
    | kept => some (ofSegments ([] :: kept))
  | _ :: before, _ => some (ofSegments (anchor ++ trimSegments before.reverse))

/-- Whether the path starts with two slashes and not with three: such a start is kept. -/
def hasDoubleRoot (p : Path) : Bool :=
  match p.bytes with
  | a :: b :: rest => a = slash && b = slash && rest.head? ≠ some slash
  | _ => false

/-- The path read from the directory `base`, without names that go nowhere. A `..` stays, since
what lies before it may be a link; so does a slash at the end. -/
def absoluteFrom (p base : Path) : Path :=
  let start :=
    if p.hasDoubleRoot then ⟨[slash, slash]⟩ else if p.isAbsolute then root else base
  let whole := (p.names.filter (· ≠ dot)).foldl (fun q name => q.join ⟨name⟩) start
  if p.endsInSlash then whole.join empty else whole

theorem join_of_isAbsolute {p q : Path} (h : q.isAbsolute = true) : p.join q = q := by
  simp [join, h]

theorem isAbsolute_join {p q : Path} (h : p.isAbsolute = true) : (p.join q).isAbsolute = true := by
  unfold join
  split
  · assumption
  · have hne : p.bytes ≠ [] := by
      intro hp
      simp [isAbsolute, hp] at h
    obtain ⟨b, bs, hb⟩ := List.exists_cons_of_ne_nil hne
    split <;> simp_all [isAbsolute]

theorem text?_ofString (s : String) : (ofString s).text? = some s := Text.decode?_encode s

theorem display_ofString (s : String) : (ofString s).display = s := Text.display_encode s

theorem eq_ofString_of_text? {p : Path} {s : String} (h : p.text? = some s) : p = ofString s :=
  congrArg Path.mk (Text.eq_encode_of_decode? h)

/-- Paths that are text are told apart by what they show. -/
theorem eq_of_display {p q : Path} (hp : p.text?.isSome = true) (hq : q.text?.isSome = true)
    (h : p.display = q.display) : p = q := by
  obtain ⟨s, hs⟩ := Option.isSome_iff_exists.1 hp
  obtain ⟨t, ht⟩ := Option.isSome_iff_exists.1 hq
  rw [eq_ofString_of_text? hs, eq_ofString_of_text? ht] at h ⊢
  rw [display_ofString, display_ofString] at h
  rw [h]

end Path

end LaunchPlan
