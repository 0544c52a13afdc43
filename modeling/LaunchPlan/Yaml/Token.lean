import LaunchPlan.Text.Utf8
import LaunchPlan.Yaml.Scalar

/-!
The tokens of YAML text. They are read on demand: a token can be taken only when no text behind it
can still turn it into a key, so that a fault shortly behind a token comes before the token.
-/

namespace LaunchPlan.Yaml

inductive Token where
  | streamEnd
  | versionDirective (major minor : Nat)
  | tagDirective (handle : String) (expansion : List UInt8)
  | documentStart
  | documentEnd
  | blockSequenceStart
  | blockMappingStart
  | blockEnd
  | flowSequenceStart
  | flowSequenceEnd
  | flowMappingStart
  | flowMappingEnd
  | blockEntry
  | flowEntry
  | key
  | value
  | alias (name : String)
  | anchor (name : String)
  | tag (handle : String) (suffix : List UInt8)
  | scalar (text : String) (style : ScalarStyle)
  deriving DecidableEq

/-- A token that becomes a key if a colon follows on its line. -/
structure Candidate where
  number : Nat
  /-- Whether nothing but a key may stand there. -/
  required : Bool
  mark : Mark

structure Scanner where
  cursor : Cursor
  /-- Whether the text ends where what can be read of it ends. -/
  isWhole : Bool
  /-- One more than the column of the innermost block collection; zero outside of all. -/
  margin : Nat
  outerMargins : List Nat
  /-- The candidate of the innermost bracket or brace, and of those around it. -/
  candidate : Option Candidate
  outerCandidates : List (Option Candidate)
  keyAllowed : Bool
  queue : List Token
  taken : Nat
  /-- More than the tokens that can still begin, of which each takes text but the last. -/
  budget : Nat

namespace Scanner

def start (r : Readable) : Scanner where
  cursor := ⟨r.text, .start⟩
  isWhole := r.isWhole
  margin := 0
  outerMargins := []
  candidate := none
  outerCandidates := []
  keyAllowed := true
  queue := []
  taken := 0
  budget := r.text.length + 2

def inFlow (s : Scanner) : Bool := !s.outerCandidates.isEmpty

def column (s : Scanner) : Nat := s.cursor.mark.column

def enqueue (s : Scanner) (t : Token) : Scanner := { s with queue := s.queue ++ [t] }

def insertAt (s : Scanner) (number : Nat) (t : Token) : Scanner :=
  { s with queue := s.queue.insertIdx (number - s.taken) t }

def skip (s : Scanner) (n : Nat) : Scanner := { s with cursor := s.cursor.skip n }

/-- How far behind the start of a key its colon may stand, in bytes. -/
def maxKeyLength : Nat := 1024

def Candidate.isStale (c : Candidate) (m : Mark) : Bool :=
  c.mark.line < m.line || c.mark.index + maxKeyLength < m.index

/-- A candidate for as long as it may become a key; one that had to and no longer can is a fault.
-/
def freshen? (m : Mark) : Option Candidate → Option (Option Candidate)
  | none => some none
  | some c =>
    if Candidate.isStale c m then if c.required then none else some none
    else some (some c)

def dropStale? (s : Scanner) : Option Scanner := do
  let candidate ← freshen? s.cursor.mark s.candidate
  let outer ← s.outerCandidates.mapM (freshen? s.cursor.mark)
  return { s with candidate, outerCandidates := outer }

def dropCandidate? (s : Scanner) : Option Scanner :=
  match s.candidate with
  | some c => if c.required then none else some { s with candidate := none }
  | none => some s

def noteCandidate? (s : Scanner) : Option Scanner :=
  if s.keyAllowed then do
    let s ← s.dropCandidate?
    let candidate : Candidate :=
      ⟨s.taken + s.queue.length, !s.inFlow && s.margin = s.column + 1, s.cursor.mark⟩
    return { s with candidate := some candidate }
  else some s

/-- A block collection opened at a column, if that lies deeper than the innermost one. -/
def indentTo (s : Scanner) (column : Nat) (put : Scanner → Scanner) : Scanner :=
  if s.inFlow then s
  else if s.margin ≤ column then
    put { s with margin := column + 1, outerMargins := s.margin :: s.outerMargins }
  else s

/-- The collections closed that are deeper than a margin. -/
def closeTo (s : Scanner) (margin : Nat) : List Nat → Scanner
  | [] => s
  | outer :: rest =>
    if s.margin > margin then
      closeTo { s with margin := outer, outerMargins := rest, queue := s.queue ++ [.blockEnd] }
        margin rest
    else s

def dedentTo (s : Scanner) (margin : Nat) : Scanner :=
  if s.inFlow then s else s.closeTo margin s.outerMargins

/-- The place after blanks, comments and empty lines, and whether a key may stand there. A byte
order mark at the start of a line is passed over, but takes up a column. -/
def gapEnd (inFlow : Bool) (keyAllowed inComment : Bool) (m : Mark) :
    List Char → Cursor × Bool
  | [] => (⟨[], m⟩, keyAllowed)
  | '\r' :: '\n' :: rest =>
    gapEnd inFlow (keyAllowed || !inFlow) false (m.nextLine ['\r', '\n']) rest
  | c :: rest =>
    if isBreak c then gapEnd inFlow (keyAllowed || !inFlow) false (m.nextLine [c]) rest
    else if inComment || c = '#' then gapEnd inFlow keyAllowed true (m.forward [c]) rest
    else if c = ' ' || (c = byteOrderMark && m.column = 0)
        || (c = '\t' && (inFlow || !keyAllowed)) then
      gapEnd inFlow keyAllowed false (m.forward [c]) rest
    else (⟨c :: rest, m⟩, keyAllowed)

def skipGap (s : Scanner) : Scanner :=
  let (cursor, keyAllowed) :=
    gapEnd s.inFlow s.keyAllowed false s.cursor.mark s.cursor.text
  { s with cursor, keyAllowed }

/-! ### Directives, anchors and tags -/

def digits? (c : Cursor) : Option (Nat × Cursor) :=
  let (ds, c) := c.takeWhile Char.isDigit
  if ds = [] ∨ ds.length > 9 then none
  else some (ds.foldl (fun n d => 10 * n + (d.toNat - '0'.toNat)) 0, c)

/-- A tag handle: an exclamation mark, and perhaps a name and then perhaps another mark. -/
def tagHandle? (c : Cursor) : Option (List Char × Cursor) :=
  if c.text.head? ≠ some '!' then none
  else
    let (name, c) := (c.skip 1).takeWhile isNameChar
    if c.text.head? = some '!' then some ('!' :: name ++ ['!'], c.skip 1)
    else some ('!' :: name, c)

/-- Whether a tag handle is complete: it ends in a mark of its own. -/
def isFullHandle (handle : List Char) : Bool :=
  handle.length > 1 && handle.getLast? = some '!'

def isUriChar (verbatim : Bool) (c : Char) : Bool :=
  isNameChar c || ";/?:@&=+$.!~*'()".toList.contains c
    || (verbatim && (c = ',' || c = '[' || c = ']'))

/-- How many bytes follow a byte that starts an escaped character. Only the lengths of characters
are checked, not whether there are such characters. -/
def followers? (lead : UInt8) : Option Nat :=
  if lead < 0x80 then some 0
  else if 0xC0 ≤ lead ∧ lead < 0xE0 then some 1
  else if 0xE0 ≤ lead ∧ lead < 0xF0 then some 2
  else if 0xF0 ≤ lead ∧ lead < 0xF8 then some 3
  else none

/-- The bytes that the characters of a tag spell, and how many characters these are. A byte may be
written as a percent sign and two hexadecimal digits; then so are the `owed` bytes that belong to
the same character. -/
def uriBytes? (verbatim : Bool) (owed : Nat) : List Char → Option (List UInt8 × Nat)
  | '%' :: a :: b :: rest => do
    let byte := UInt8.ofNat (16 * (← hexValue? a) + (← hexValue? b))
    let owed ←
      if owed = 0 then followers? byte
      else if Text.isContinuation byte then some (owed - 1)
      else none
    let (bytes, n) ← uriBytes? verbatim owed rest
    return (byte :: bytes, n + 3)
  | c :: rest =>
    if c = '%' ∨ owed ≠ 0 then none
    else if isUriChar verbatim c then do
      let (bytes, n) ← uriBytes? verbatim 0 rest
      return (UInt8.ofNat c.toNat :: bytes, n + 1)
    else some ([], 0)
  | [] => if owed = 0 then some ([], 0) else none

/-- The bytes of a tag up to the first zero byte, which ends it, whether anything is written there,
and the cursor behind it. -/
def uri? (verbatim : Bool) (c : Cursor) : Option (List UInt8 × Bool × Cursor) := do
  let (bytes, n) ← uriBytes? verbatim 0 c.text
  return (bytes.takeWhile (· ≠ 0), n ≠ 0, c.skip n)

def loneTag : List UInt8 := Text.encodeChars ['!']

/-- A tag: verbatim between angle brackets, or a handle and a suffix. -/
def tag? (inFlow : Bool) (c : Cursor) : Option (Token × Cursor) := do
  let (token, c) ←
    if c.text[1]? = some '<' then do
      let (suffix, isWritten, c) ← uri? true (c.skip 2)
      if !isWritten || c.text.head? ≠ some '>' then none
      else pure (Token.tag "" suffix, c.skip 1)
    else do
      let (handle, c) ← tagHandle? c
      let (suffix, isWritten, c) ← uri? false c
      if isFullHandle handle then
        if !isWritten then none else pure (Token.tag (String.ofList handle) suffix, c)
      else if handle.tail = [] ∧ suffix = [] then pure (Token.tag "" loneTag, c)
      else pure (Token.tag "!" (Text.encodeChars handle.tail ++ suffix), c)
  if atGap c.text || (inFlow && c.text.head? = some ',') then return (token, c) else none

/-- A directive, from its percent sign to the end of its line. -/
def directive? (c : Cursor) : Option (Token × Cursor) := do
  let (name, c) := (c.skip 1).takeWhile isNameChar
  if !atGap c.text then none
  else if name = "YAML".toList then do
    let (major, c) ← digits? c.skipBlanks
    if c.text.head? ≠ some '.' then none
    else do
      let (minor, c) ← digits? (c.skip 1)
      return (.versionDirective major minor, ← c.finishLine?)
  else if name = "TAG".toList then do
    let (handle, c) ← tagHandle? c.skipBlanks
    if !(isFullHandle handle || handle = ['!']) || !c.text.head?.any isBlank then none
    else do
      let (expansion, isWritten, c) ← uri? true c.skipBlanks
      if !isWritten || !atGap c.text then none
      else return (.tagDirective (String.ofList handle) expansion, ← c.finishLine?)
  else none

def endsAnchor : List Char → Bool
  | [] => true
  | c :: _ => isBlank c || isBreak c || "?:,]\x7d%@`".toList.contains c

def anchorName? (c : Cursor) : Option (String × Cursor) :=
  let (name, c) := (c.skip 1).takeWhile isNameChar
  if name = [] ∨ !endsAnchor c.text then none else some (String.ofList name, c)

/-! ### One token -/

/-- The scanner behind a token that may be a key itself, as no key may follow it on the line. -/
def afterNode (s : Scanner) (t : Token) (c : Cursor) : Scanner :=
  { s.enqueue t with cursor := c, keyAllowed := false }

/-- The end of the text, which ends its last line too, so that nothing before it can become a key.
-/
def fetchStreamEnd? (s : Scanner) : Option Scanner := do
  let s := if s.column = 0 then s else { s with cursor.mark := s.cursor.mark.nextLine [] }
  let s ← (s.dedentTo 0).dropCandidate?
  return { s.enqueue .streamEnd with keyAllowed := false }

def fetchDirective? (s : Scanner) : Option Scanner := do
  let s ← (s.dedentTo 0).dropCandidate?
  let (t, c) ← directive? s.cursor
  return s.afterNode t c

def fetchDocumentMark? (s : Scanner) (t : Token) : Option Scanner := do
  let s ← (s.dedentTo 0).dropCandidate?
  return s.afterNode t (s.cursor.skip 3)

def fetchFlowStart? (s : Scanner) (t : Token) : Option Scanner := do
  let s ← s.noteCandidate?
  return { (s.enqueue t).skip 1 with
    candidate := none
    outerCandidates := s.candidate :: s.outerCandidates
    keyAllowed := true }

def fetchFlowEnd? (s : Scanner) (t : Token) : Option Scanner := do
  let s ← s.dropCandidate?
  let s := { (s.enqueue t).skip 1 with keyAllowed := false }
  match s.outerCandidates with
  | candidate :: rest => return { s with candidate, outerCandidates := rest }
  | [] => return s

def fetchFlowEntry? (s : Scanner) : Option Scanner := do
  let s ← s.dropCandidate?
  return { (s.enqueue .flowEntry).skip 1 with keyAllowed := true }

def fetchBlockEntry? (s : Scanner) : Option Scanner := do
  if !s.inFlow && !s.keyAllowed then none
  else do
    let s ← (s.indentTo s.column (·.enqueue .blockSequenceStart)).dropCandidate?
    return { (s.enqueue .blockEntry).skip 1 with keyAllowed := true }

def fetchKey? (s : Scanner) : Option Scanner := do
  if !s.inFlow && !s.keyAllowed then none
  else do
    let s ← (s.indentTo s.column (·.enqueue .blockMappingStart)).dropCandidate?
    return { (s.enqueue .key).skip 1 with keyAllowed := !s.inFlow }

/-- A colon: it makes the candidate a key, or follows a key that has its own mark. -/
def fetchValue? (s : Scanner) : Option Scanner :=
  match s.candidate with
  | some c =>
    let s := (s.insertAt c.number .key).indentTo c.mark.column
      (·.insertAt c.number .blockMappingStart)
    some { (s.enqueue .value).skip 1 with candidate := none, keyAllowed := false }
  | none =>
    if !s.inFlow && !s.keyAllowed then none
    else
      let s := s.indentTo s.column (·.enqueue .blockMappingStart)
      some { (s.enqueue .value).skip 1 with keyAllowed := !s.inFlow }

def fetchAnchor? (s : Scanner) (make : String → Token) : Option Scanner := do
  let s ← s.noteCandidate?
  let (name, c) ← anchorName? s.cursor
  return s.afterNode (make name) c

def fetchTag? (s : Scanner) : Option Scanner := do
  let s ← s.noteCandidate?
  let (t, c) ← tag? s.inFlow s.cursor
  return s.afterNode t c

def fetchBlockScalar? (s : Scanner) (style : ScalarStyle) : Option Scanner := do
  let s ← s.dropCandidate?
  let r ← blockScalar (style = .folded) s.margin (s.cursor.skip 1)
  return { s.enqueue (.scalar r.text style) with cursor := r.cursor, keyAllowed := true }

def fetchQuoted? (s : Scanner) (style : ScalarStyle) : Option Scanner := do
  let s ← s.noteCandidate?
  let c := s.cursor.skip 1
  let read := if style = .singleQuoted then singleQuoted else doubleQuoted
  let r ← read .empty c.mark c.text
  return s.afterNode (.scalar r.text style) r.cursor

def fetchPlain? (s : Scanner) : Option Scanner := do
  let s ← s.noteCandidate?
  let r ← plain ⟨s.inFlow, s.margin⟩ .empty false s.cursor.mark s.cursor.text
  let s := s.afterNode (.scalar r.text .plain) r.cursor
  return if r.crossedLine then { s with keyAllowed := true } else s

def isIndicator (c : Char) : Bool :=
  "-?:,[]\x7b\x7d#&*!|>'\"%@`".toList.contains c

/-- Whether a plain scalar starts here: with a character of its own, or with a dash, question mark
or colon that more text follows. -/
def startsPlain (inFlow : Bool) : List Char → Bool
  | [] => false
  | c :: rest =>
    !(isIndicator c || isBlank c) || (c = '-' && !rest.head?.any isBlank)
      || (!inFlow && (c = '?' || c = ':') && !atGap rest)

def fetchHere? (s : Scanner) : Option Scanner :=
  match s.cursor.text with
  | [] => s.fetchStreamEnd?
  | c :: rest =>
    if s.column = 0 && c = '%' then s.fetchDirective?
    else if s.column = 0 && startsWithThree '-' (c :: rest) then
      s.fetchDocumentMark? .documentStart
    else if s.column = 0 && startsWithThree '.' (c :: rest) then
      s.fetchDocumentMark? .documentEnd
    else if c = '[' then s.fetchFlowStart? .flowSequenceStart
    else if c = '\x7b' then s.fetchFlowStart? .flowMappingStart
    else if c = ']' then s.fetchFlowEnd? .flowSequenceEnd
    else if c = '\x7d' then s.fetchFlowEnd? .flowMappingEnd
    else if c = ',' then s.fetchFlowEntry?
    else if c = '-' && atGap rest then s.fetchBlockEntry?
    else if c = '?' && (s.inFlow || atGap rest) then s.fetchKey?
    else if c = ':' && (s.inFlow || atGap rest) then s.fetchValue?
    else if c = '*' then s.fetchAnchor? .alias
    else if c = '&' then s.fetchAnchor? .anchor
    else if c = '!' then s.fetchTag?
    else if c = '|' && !s.inFlow then s.fetchBlockScalar? .literal
    else if c = '>' && !s.inFlow then s.fetchBlockScalar? .folded
    else if c = '\'' then s.fetchQuoted? .singleQuoted
    else if c = '"' then s.fetchQuoted? .doubleQuoted
    else if startsPlain s.inFlow (c :: rest) then s.fetchPlain?
    else none

/-- The longest mark that is looked for at the start of a token, with the gap behind it. -/
def longestMark : Nat := 4

/-- The scanner with the next token read. Where the text ends early, a token must not reach that
end, nor may one begin too close to it. -/
def fetch? (s : Scanner) : Option Scanner := do
  let s ← s.skipGap.dropStale?
  if !s.isWhole && s.cursor.text.length < longestMark then none
  else do
    let s ← (s.dedentTo (s.column + 1)).fetchHere?
    if !s.isWhole && s.cursor.text.isEmpty then none else return s

def isFirstOpen (s : Scanner) : Bool :=
  (s.candidate :: s.outerCandidates).any fun c => c.any fun c => c.number = s.taken

/-- The scanner with a first token in its queue that stays what it is, after at most `budget` more
tokens. -/
def fill (s : Scanner) : Nat → Option Scanner
  | 0 => none
  | budget + 1 =>
    if s.queue = [] then (s.fetch?).bind fun s => s.fill budget
    else do
      let s ← s.dropStale?
      if s.isFirstOpen then (← s.fetch?).fill budget
      else return { s with budget := budget + 1 }

def peek? (s : Scanner) : Option (Token × Scanner) := do
  let s ← s.fill s.budget
  return (← s.queue.head?, s)

def take (s : Scanner) : Scanner :=
  { s with queue := s.queue.tail, taken := s.taken + 1 }

end Scanner

end LaunchPlan.Yaml
