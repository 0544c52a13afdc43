/-!
The characters of YAML text by class, how much of a text can be read, and places in it.
-/

namespace LaunchPlan.Yaml

def isAllowed (c : Char) : Bool :=
  c = '\t' || c = '\n' || c = '\r' || (' ' ≤ c && c ≤ '~') || c = '\u0085'
    || ('\u00a0' ≤ c && c ≤ '\ufffd') || c.toNat ≥ 0x10000

def isBlank (c : Char) : Bool := c = ' ' || c = '\t'

/-- The characters that end a line; a carriage return and a line feed together end one. -/
def isBreak (c : Char) : Bool :=
  c = '\r' || c = '\n' || c = '\u0085' || c = '\u2028' || c = '\u2029'

/-- What a line break contributes to a scalar. -/
def breakText (c : Char) : List Char :=
  if c = '\u2028' || c = '\u2029' then [c] else ['\n']

def isNameChar (c : Char) : Bool :=
  c.isAlphanum || c = '_' || c = '-'

def byteOrderMark : Char := '\ufeff'

/-- Whether a text is at its end, at a blank or at a line break. -/
def atGap : List Char → Bool
  | [] => true
  | c :: _ => isBlank c || isBreak c

def atLineEnd : List Char → Bool
  | [] => true
  | c :: _ => isBreak c

/-- Whether a text starts with three of a character and then a gap. -/
def startsWithThree (mark : Char) : List Char → Bool
  | a :: b :: c :: rest => a = mark && b = mark && c = mark && atGap rest
  | _ => false

/-- Whether a line starts with the mark of a document's start or end. -/
def atDocumentMark (text : List Char) : Bool :=
  startsWithThree '-' text || startsWithThree '.' text

def blockSize : Nat := 16384

/-- What can be read of a text, and whether that is all of it. -/
structure Readable where
  text : List Char
  isWhole : Bool

/-- A text as far as it can be read. It is read in blocks of whole characters, with `room` bytes
left in the current one; a character that may not stand in a text spoils its block and all that
follow. -/
def readBlocks (earlier block : List Char) (room : Nat) : List Char → Readable
  | [] => ⟨(block ++ earlier).reverse, true⟩
  | c :: rest =>
    if c.utf8Size ≤ room then
      if isAllowed c then readBlocks earlier (c :: block) (room - c.utf8Size) rest
      else ⟨earlier.reverse, false⟩
    else if isAllowed c then
      readBlocks (block ++ earlier) [c] (blockSize - c.utf8Size) rest
    else ⟨(block ++ earlier).reverse, false⟩

def readable (text : List Char) : Readable := readBlocks [] [] blockSize text

structure Mark where
  /-- How many bytes come before it. -/
  index : Nat
  line : Nat
  /-- How many characters come before it on its line. -/
  column : Nat
  deriving DecidableEq

namespace Mark

def start : Mark := ⟨0, 0, 0⟩

def width (cs : List Char) : Nat := cs.foldr (fun c n => c.utf8Size + n) 0

def forward (m : Mark) (cs : List Char) : Mark :=
  ⟨m.index + width cs, m.line, m.column + cs.length⟩

def nextLine (m : Mark) (cs : List Char) : Mark := ⟨m.index + width cs, m.line + 1, 0⟩

end Mark

structure Cursor where
  text : List Char
  mark : Mark

namespace Cursor

/-- The cursor `n` characters on, on the same line. -/
def skip (c : Cursor) (n : Nat) : Cursor := ⟨c.text.drop n, c.mark.forward (c.text.take n)⟩

/-- The characters from here on that satisfy `p`, none of them a line break, and the cursor after
them. -/
def takeWhile (c : Cursor) (p : Char → Bool) : List Char × Cursor :=
  let taken := c.text.takeWhile p
  (taken, c.skip taken.length)

def skipWhile (c : Cursor) (p : Char → Bool) : Cursor := (c.takeWhile p).2

def skipBlanks (c : Cursor) : Cursor := c.skipWhile isBlank

/-- The cursor after the line break that it is at, if it is at one. -/
def skipBreak (c : Cursor) : Cursor :=
  match c.text with
  | '\r' :: '\n' :: rest => ⟨rest, c.mark.nextLine ['\r', '\n']⟩
  | ch :: rest => if isBreak ch then ⟨rest, c.mark.nextLine [ch]⟩ else c
  | [] => c

/-- The cursor after the rest of a line that holds nothing but blanks and a comment. -/
def finishLine? (c : Cursor) : Option Cursor :=
  let c := c.skipBlanks
  let c := if c.text.head? = some '#' then c.skipWhile (fun ch => !isBreak ch) else c
  if atLineEnd c.text then some c.skipBreak else none

end Cursor

end LaunchPlan.Yaml
