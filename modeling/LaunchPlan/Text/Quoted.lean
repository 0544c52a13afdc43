import LaunchPlan.Text.Hidden
import LaunchPlan.Text.Utf8

/-!
Text in double quotes, for messages. Quotes, backslashes and the usual control characters are
written with a backslash, characters that could not be seen as such by code point, bytes that
spell no character in hexadecimal.
-/

namespace LaunchPlan.Text

/-- A digit of a number in base sixteen, with `a` to `f` for ten to fifteen. -/
def lowerHexDigit (n : Nat) : Char :=
  if n < 10 then Char.ofNat ('0'.toNat + n) else Char.ofNat ('a'.toNat + (n - 10))

def upperHexDigit (n : Nat) : Char :=
  if n < 10 then Char.ofNat ('0'.toNat + n) else Char.ofNat ('A'.toNat + (n - 10))

def lowerHex (n : Nat) : List Char :=
  if n < 16 then [lowerHexDigit n] else lowerHex (n / 16) ++ [lowerHexDigit (n % 16)]
termination_by n

def quoteChar (c : Char) : List Char :=
  if c = '"' || c = '\\' then ['\\', c]
  else if c = '\t' then ['\\', 't']
  else if c = '\r' then ['\\', 'r']
  else if c = '\n' then ['\\', 'n']
  else if c = '\x00' then ['\\', '0']
  else if isHidden c then ['\\', 'u', '\x7b'] ++ lowerHex c.toNat ++ ['\x7d']
  else [c]

def quoteByte (b : UInt8) : List Char :=
  ['\\', 'x', upperHexDigit (b.toNat / 16), upperHexDigit (b.toNat % 16)]

def Piece.quoted : Piece → List Char
  | .char c => quoteChar c
  | .invalid bytes => bytes.flatMap quoteByte

def quoteBytes (bytes : List UInt8) : String :=
  String.ofList ('"' :: (pieces bytes).flatMap Piece.quoted ++ ['"'])

def quote (s : String) : String :=
  String.ofList ('"' :: s.toList.flatMap quoteChar ++ ['"'])

end LaunchPlan.Text
