import LaunchPlan.Yaml.Character

/-!
Scalars from text. A line break inside a scalar is folded: a single one reads as a space, and of
more the first is dropped. Every reader goes through the text once, character by character, and
returns the cursor where it stopped.
-/

namespace LaunchPlan.Yaml

inductive ScalarStyle where
  | plain
  | singleQuoted
  | doubleQuoted
  | literal
  | folded
  deriving DecidableEq

/-- A scalar that is being read: what is certain of its text, last character first, and the blanks
and line breaks since, whose meaning depends on what follows. -/
structure Folding where
  written : List Char
  /-- Blanks on the current line, last one first, as long as there was no line break. -/
  blanks : List Char
  /-- The first line break since the last written character. -/
  firstBreak : Option (List Char)
  /-- The line breaks after the first, last one first. -/
  moreBreaks : List Char

namespace Folding

def empty : Folding := ⟨[], [], none, []⟩

def blank (f : Folding) (c : Char) : Folding :=
  if f.firstBreak.isSome then f else { f with blanks := c :: f.blanks }

def lineBreak (f : Folding) (c : Char) : Folding :=
  match f.firstBreak with
  | none => { f with blanks := [], firstBreak := some (breakText c) }
  | some _ => { f with moreBreaks := breakText c ++ f.moreBreaks }

def hiddenBreak (f : Folding) : Folding := { f with firstBreak := some [] }

/-- The scalar with its blanks and breaks settled. -/
def settle (f : Folding) : Folding :=
  match f.firstBreak with
  | none => ⟨f.blanks ++ f.written, [], none, []⟩
  | some first =>
    if first.head? = some '\n' then
      let gap := if f.moreBreaks = [] then [' '] else f.moreBreaks
      ⟨gap ++ f.written, [], none, []⟩
    else ⟨f.moreBreaks ++ first.reverse ++ f.written, [], none, []⟩

def push (f : Folding) (c : Char) : Folding :=
  { f.settle with written := c :: f.settle.written }

def text (f : Folding) : String := String.ofList f.written.reverse

end Folding

structure Scanned where
  text : String
  cursor : Cursor

/-- The rest of a scalar in single quotes, from after the opening quote. A quote inside is written
twice. -/
def singleQuoted (f : Folding) (m : Mark) : List Char → Option Scanned
  | [] => none
  | '\r' :: '\n' :: rest => singleQuoted (f.lineBreak '\n') (m.nextLine ['\r', '\n']) rest
  | c :: rest =>
    if isBreak c then singleQuoted (f.lineBreak c) (m.nextLine [c]) rest
    else if isBlank c then singleQuoted (f.blank c) (m.forward [c]) rest
    else if m.column = 0 && atDocumentMark (c :: rest) then none
    else if c = '\'' then
      match rest with
      | '\'' :: after => singleQuoted (f.push '\'') (m.forward ['\'', '\'']) after
      | _ => some ⟨f.settle.text, ⟨rest, m.forward [c]⟩⟩
    else singleQuoted (f.push c) (m.forward [c]) rest

def hexValue? (c : Char) : Option Nat :=
  if '0' ≤ c ∧ c ≤ '9' then some (c.toNat - '0'.toNat)
  else if 'a' ≤ c ∧ c ≤ 'f' then some (c.toNat - 'a'.toNat + 10)
  else if 'A' ≤ c ∧ c ≤ 'F' then some (c.toNat - 'A'.toNat + 10)
  else none

def charOfHex? (digits : List Char) : Option Char := do
  let values ← digits.mapM hexValue?
  let n := values.foldl (fun n v => 16 * n + v) 0
  if h : n.isValidChar then some (Char.ofNatAux n h) else none

def escaped? : Char → Option Char
  | '0' => some '\x00'
  | 'a' => some '\x07'
  | 'b' => some '\x08'
  | 't' => some '\t'
  | '\t' => some '\t'
  | 'n' => some '\n'
  | 'v' => some '\x0b'
  | 'f' => some '\x0c'
  | 'r' => some '\r'
  | 'e' => some '\x1b'
  | ' ' => some ' '
  | '"' => some '"'
  | '/' => some '/'
  | '\\' => some '\\'
  | 'N' => some '\u0085'
  | '_' => some '\u00a0'
  | 'L' => some '\u2028'
  | 'P' => some '\u2029'
  | _ => none

/-- The rest of a scalar in double quotes, from after the opening quote. -/
def doubleQuoted (f : Folding) (m : Mark) : List Char → Option Scanned
  | [] => none
  | '\r' :: '\n' :: rest => doubleQuoted (f.lineBreak '\n') (m.nextLine ['\r', '\n']) rest
  | '\\' :: '\r' :: '\n' :: rest =>
    doubleQuoted f.settle.hiddenBreak ((m.forward ['\\']).nextLine ['\r', '\n']) rest
  | '\\' :: 'x' :: a :: b :: rest => do
    doubleQuoted (f.push (← charOfHex? [a, b])) (m.forward ['\\', 'x', a, b]) rest
  | '\\' :: 'u' :: a :: b :: c :: d :: rest => do
    doubleQuoted (f.push (← charOfHex? [a, b, c, d])) (m.forward ['\\', 'u', a, b, c, d]) rest
  | '\\' :: 'U' :: a :: b :: c :: d :: e :: g :: h :: i :: rest => do
    doubleQuoted (f.push (← charOfHex? [a, b, c, d, e, g, h, i]))
      (m.forward ['\\', 'U', a, b, c, d, e, g, h, i]) rest
  | '\\' :: c :: rest =>
    if isBreak c then doubleQuoted f.settle.hiddenBreak ((m.forward ['\\']).nextLine [c]) rest
    else do doubleQuoted (f.push (← escaped? c)) (m.forward ['\\', c]) rest
  | c :: rest =>
    if isBreak c then doubleQuoted (f.lineBreak c) (m.nextLine [c]) rest
    else if isBlank c then doubleQuoted (f.blank c) (m.forward [c]) rest
    else if m.column = 0 && atDocumentMark (c :: rest) then none
    else if c = '"' then some ⟨f.settle.text, ⟨rest, m.forward [c]⟩⟩
    else doubleQuoted (f.push c) (m.forward [c]) rest

def isFlowIndicator (c : Char) : Bool :=
  c = ',' || c = '[' || c = ']' || c = '\x7b' || c = '\x7d'

/-- A plain scalar's text, the cursor after it and the gap behind it, and whether that gap holds a
line break. -/
structure PlainScanned where
  text : String
  cursor : Cursor
  crossedLine : Bool

structure PlainContext where
  /-- Whether it stands between brackets or braces. -/
  inFlow : Bool
  /-- The column from which a further line still belongs to it, outside of those. -/
  margin : Nat

/-- Whether a plain scalar ends before a character that follows a gap. -/
def PlainContext.endsAfterGap (ctx : PlainContext) (m : Mark) (text : List Char) : Bool :=
  (!ctx.inFlow && m.column < ctx.margin) || (m.column = 0 && atDocumentMark text)
    || text.head? = some '#'

/-- A plain scalar. A colon ends it before a gap only; a comma, bracket or brace only where it
stands between such. -/
def plain (ctx : PlainContext) (f : Folding) (afterGap : Bool) (m : Mark) :
    List Char → Option PlainScanned
  | [] => some ⟨f.text, ⟨[], m⟩, f.firstBreak.isSome⟩
  | '\r' :: '\n' :: rest => plain ctx (f.lineBreak '\n') true (m.nextLine ['\r', '\n']) rest
  | c :: rest =>
    if isBreak c then plain ctx (f.lineBreak c) true (m.nextLine [c]) rest
    else if isBlank c then
      if c = '\t' && f.firstBreak.isSome && m.column < ctx.margin then none
      else plain ctx (f.blank c) true (m.forward [c]) rest
    else if afterGap && ctx.endsAfterGap m (c :: rest) then
      some ⟨f.text, ⟨c :: rest, m⟩, f.firstBreak.isSome⟩
    else if ctx.inFlow && c = ':' && rest.head?.any (fun d => isFlowIndicator d || d = '?') then
      none
    else if (c = ':' && atGap rest) || (ctx.inFlow && isFlowIndicator c) then
      some ⟨f.text, ⟨c :: rest, m⟩, f.firstBreak.isSome⟩
    else plain ctx (f.push c) false (m.forward [c]) rest

inductive Chomping where
  | strip
  | clip
  | keep
  deriving DecidableEq

structure Block where
  folds : Bool
  chomping : Chomping
  /-- The column of its text; zero until it is known. -/
  indent : Nat
  /-- The deepest column seen before the text begins. -/
  deepest : Nat
  /-- The least column that the text may have. -/
  least : Nat
  written : List Char
  lastBreak : List Char
  /-- The breaks of empty lines since, last one first. -/
  emptyLines : List Char
  /-- Whether the last line of text starts with a blank: then it is not folded. -/
  wasBlank : Bool

namespace Block

def text (b : Block) : String :=
  let body :=
    match b.chomping with
    | .strip => b.written
    | .clip => b.lastBreak.reverse ++ b.written
    | .keep => b.emptyLines ++ b.lastBreak.reverse ++ b.written
  String.ofList body.reverse

def indentUnknownOrAbove (b : Block) (column : Nat) : Bool :=
  b.indent = 0 || column < b.indent

/-- The block with its indentation settled: that of its deepest leading line, if nothing else
says. -/
def settleIndent (b : Block) : Block :=
  if b.indent = 0 then { b with indent := max b.deepest (max b.least 1) } else b

/-- The block at the first character of a line of text. Two lines are folded into one unless
either starts with a blank. -/
def startLine (b : Block) (c : Char) : Block :=
  let joined :=
    if b.folds && b.lastBreak.head? = some '\n' && !b.wasBlank && !isBlank c then
      if b.emptyLines = [] then ' ' :: b.written else b.written
    else b.lastBreak.reverse ++ b.written
  { b with
    written := c :: (b.emptyLines ++ joined)
    lastBreak := []
    emptyLines := []
    wasBlank := isBlank c }

end Block

namespace Block

/-- The block after a line break, at the end of a line of text or of an empty line. -/
def endLine (b : Block) (inText : Bool) (c : Char) : Block :=
  if inText then { b with lastBreak := breakText c }
  else { b with emptyLines := breakText c ++ b.emptyLines }

end Block

/-- The lines of a block scalar; `inText` says whether the line has reached its text. -/
def blockLines (b : Block) (inText : Bool) (m : Mark) : List Char → Option Scanned
  | [] => some ⟨b.text, ⟨[], m⟩⟩
  | '\r' :: '\n' :: rest =>
    blockLines (b.endLine inText '\n') false (m.nextLine ['\r', '\n']) rest
  | c :: rest =>
    if isBreak c then blockLines (b.endLine inText c) false (m.nextLine [c]) rest
    else if inText then blockLines { b with written := c :: b.written } true (m.forward [c]) rest
    else if c = ' ' && b.indentUnknownOrAbove m.column then
      blockLines { b with deepest := max b.deepest (m.column + 1) } false (m.forward [c]) rest
    else if c = '\t' && b.indentUnknownOrAbove m.column then none
    else
      let b := b.settleIndent
      if m.column = b.indent then blockLines (b.startLine c) true (m.forward [c]) rest
      else some ⟨b.text, ⟨c :: rest, m⟩⟩

def chomping? : Char → Option Chomping
  | '+' => some .keep
  | '-' => some .strip
  | _ => none

def indentation? (c : Char) : Option Nat :=
  if '1' ≤ c ∧ c ≤ '9' then some (c.toNat - '0'.toNat) else none

/-- The chomping and the indentation of a block scalar's header, in either order, and the cursor
after them. -/
def blockHeader? (c : Cursor) : Option (Chomping × Option Nat × Cursor) :=
  match c.text with
  | a :: b :: _ =>
    match chomping? a, indentation? a with
    | some ch, _ =>
      if b = '0' then none
      else
        match indentation? b with
        | some n => some (ch, some n, c.skip 2)
        | none => some (ch, none, c.skip 1)
    | none, some n =>
      match chomping? b with
      | some ch => some (ch, some n, c.skip 2)
      | none => some (.clip, some n, c.skip 1)
    | none, none => if a = '0' then none else some (.clip, none, c)
  | [a] =>
    match chomping? a, indentation? a with
    | some ch, _ => some (ch, none, c.skip 1)
    | none, some n => some (.clip, some n, c.skip 1)
    | none, none => if a = '0' then none else some (.clip, none, c)
  | [] => some (.clip, none, c)

/-- A block scalar, from after its indicator. `margin` is the column past that of the collection
it stands in. -/
def blockScalar (folds : Bool) (margin : Nat) (c : Cursor) : Option Scanned := do
  let (chomping, increment, c) ← blockHeader? c
  let c ← c.finishLine?
  let indent :=
    match increment with
    | none => 0
    | some n => margin - 1 + n
  blockLines
    { folds, chomping, indent, deepest := 0, least := margin, written := [], lastBreak := [],
      emptyLines := [], wasBlank := false }
    false c.mark c.text

end LaunchPlan.Yaml
