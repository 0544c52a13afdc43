/-!
Byte strings as text. `pieces` cuts a byte string into characters and ill-formed stretches; the
strict reading `decode?` refuses the latter, the lossy reading `display` shows each as one
replacement character. Main statements: `pieces_encode`, so text read back from its own bytes is
the same text, `eq_encode_of_decode?`, so bytes that spell a text are its own bytes, and
`display_encode`, so showing loses nothing of well-formed text.
-/

namespace LaunchPlan.Text

/-- A stretch of a byte string: one character, or bytes that start none. -/
inductive Piece where
  | char (c : Char)
  | invalid (bytes : List UInt8)
  deriving DecidableEq

def encodeChars (cs : List Char) : List UInt8 :=
  cs.flatMap String.utf8EncodeChar

def encode (s : String) : List UInt8 :=
  encodeChars s.toList

def firstChar? (bytes : List UInt8) : Option Char :=
  (bytes.take 4).toByteArray.utf8DecodeChar? 0

def isContinuation (b : UInt8) : Bool :=
  0x80 ≤ b && b ≤ 0xBF

/-- The bytes that may stand second after a leading byte of a three-byte character. -/
def isSecondOfThree (lead b : UInt8) : Bool :=
  if lead = 0xE0 then 0xA0 ≤ b && b ≤ 0xBF
  else if lead = 0xED then 0x80 ≤ b && b ≤ 0x9F
  else 0xE1 ≤ lead && lead ≤ 0xEF && isContinuation b

/-- The bytes that may stand second after a leading byte of a four-byte character. -/
def isSecondOfFour (lead b : UInt8) : Bool :=
  if lead = 0xF0 then 0x90 ≤ b && b ≤ 0xBF
  else if lead = 0xF4 then 0x80 ≤ b && b ≤ 0x8F
  else 0xF1 ≤ lead && lead ≤ 0xF3 && isContinuation b

/-- How many bytes, where no character starts, could still have started one: the longest such run
is one ill-formed stretch. -/
def invalidLength : List UInt8 → Nat
  | lead :: second :: third :: _ =>
    if isSecondOfFour lead second then
      if isContinuation third then 3 else 2
    else if isSecondOfThree lead second then 2
    else 1
  | [lead, second] =>
    if isSecondOfFour lead second || isSecondOfThree lead second then 2 else 1
  | _ => 1

theorem invalidLength_pos (bytes : List UInt8) : 0 < invalidLength bytes := by
  unfold invalidLength
  split <;> (repeat' split) <;> decide

/-- The characters and ill-formed stretches of a byte string, in order. -/
def pieces : List UInt8 → List Piece
  | [] => []
  | b :: rest =>
    match firstChar? (b :: rest) with
    | some c => .char c :: pieces ((b :: rest).drop c.utf8Size)
    | none =>
      .invalid ((b :: rest).take (invalidLength (b :: rest))) ::
        pieces ((b :: rest).drop (invalidLength (b :: rest)))
termination_by bytes => bytes.length
decreasing_by
  · have := c.utf8Size_pos
    simp only [List.length_drop, List.length_cons]; omega
  · have := invalidLength_pos (b :: rest)
    simp only [List.length_drop, List.length_cons]; omega

def chars? : List Piece → Option (List Char)
  | [] => some []
  | .char c :: rest => (chars? rest).map (c :: ·)
  | .invalid _ :: _ => none

/-- The text that a byte string spells, if it is well-formed UTF-8. -/
def decode? (bytes : List UInt8) : Option String :=
  (chars? (pieces bytes)).map String.ofList

def Piece.shown : Piece → Char
  | .char c => c
  | .invalid _ => '\ufffd'

/-- The text shown for a byte string: an ill-formed stretch shows as one replacement character. -/
def display (bytes : List UInt8) : String :=
  String.ofList ((pieces bytes).map Piece.shown)

theorem firstChar?_encode (c : Char) (rest : List UInt8) :
    firstChar? (String.utf8EncodeChar c ++ rest) = some c := by
  have hlen : (String.utf8EncodeChar c).length ≤ 4 := by
    rw [String.length_utf8EncodeChar]; exact c.utf8Size_le_four
  have htake : (String.utf8EncodeChar c ++ rest).take 4
      = String.utf8EncodeChar c ++ rest.take (4 - (String.utf8EncodeChar c).length) := by
    rw [List.take_append, List.take_of_length_le hlen]
  rw [firstChar?, htake, List.toByteArray_append]
  exact ByteArray.utf8DecodeChar?_utf8EncodeChar_append

theorem pieces_encode_append (cs : List Char) (rest : List UInt8) :
    pieces (encodeChars cs ++ rest) = cs.map .char ++ pieces rest := by
  induction cs with
  | nil => rfl
  | cons c cs ih =>
    have happ : encodeChars (c :: cs) ++ rest
        = String.utf8EncodeChar c ++ (encodeChars cs ++ rest) := by
      simp [encodeChars]
    have hne : String.utf8EncodeChar c ≠ [] := by
      intro h
      have := String.length_utf8EncodeChar c
      have := c.utf8Size_pos
      simp_all
    obtain ⟨b, bs, hb⟩ := List.exists_cons_of_ne_nil hne
    have hfirst := firstChar?_encode c (encodeChars cs ++ rest)
    have hdrop : (String.utf8EncodeChar c ++ (encodeChars cs ++ rest)).drop c.utf8Size
        = encodeChars cs ++ rest := by
      rw [← String.length_utf8EncodeChar c, List.drop_left]
    rw [happ]
    rw [hb, List.cons_append] at hfirst hdrop ⊢
    rw [pieces, hfirst]
    simp only [hdrop, ih, List.map_cons, List.cons_append]

theorem pieces_encode (s : String) : pieces (encode s) = s.toList.map .char := by
  have h := pieces_encode_append s.toList []
  rwa [List.append_nil, pieces, List.append_nil] at h

theorem chars?_map_char (cs : List Char) : chars? (cs.map .char) = some cs := by
  induction cs with
  | nil => rfl
  | cons c cs ih => simp [chars?, ih]

theorem decode?_encode (s : String) : decode? (encode s) = some s := by
  simp [decode?, pieces_encode, chars?_map_char]

theorem firstChar?_some {bytes : List UInt8} {c : Char} (h : firstChar? bytes = some c) :
    bytes = String.utf8EncodeChar c ++ bytes.drop c.utf8Size := by
  obtain ⟨rest, hrest⟩ := ByteArray.exists_of_utf8DecodeChar?_eq_some h
  have htake : bytes.take 4 = String.utf8EncodeChar c ++ rest.data.toList := by
    have hdata := congrArg (fun b : ByteArray => b.data.toList) hrest
    simpa using hdata
  have hprefix : String.utf8EncodeChar c <+: bytes :=
    (htake ▸ List.prefix_append _ _ : _ <+: bytes.take 4).trans (List.take_prefix 4 bytes)
  obtain ⟨more, hmore⟩ := hprefix
  rw [← hmore, ← String.length_utf8EncodeChar c, List.drop_left]

theorem encode_append (s t : String) : encode (s ++ t) = encode s ++ encode t := by
  simp [encode, encodeChars]

theorem encodeChars_cons (c : Char) (cs : List Char) :
    encodeChars (c :: cs) = String.utf8EncodeChar c ++ encodeChars cs := by
  simp [encodeChars]

theorem eq_encodeChars {bytes : List UInt8} {cs : List Char}
    (h : chars? (pieces bytes) = some cs) : bytes = encodeChars cs := by
  fun_induction pieces bytes generalizing cs with
  | case1 =>
    cases h
    rfl
  | case2 b rest c hfirst ih =>
    obtain ⟨more, hmore, rfl⟩ := Option.map_eq_some_iff.1 h
    rw [encodeChars_cons, ← ih hmore]
    exact firstChar?_some hfirst
  | case3 b rest hnone ih => simp [chars?] at h

/-- Bytes that spell a text are the bytes of that text. -/
theorem eq_encode_of_decode? {bytes : List UInt8} {s : String} (h : decode? bytes = some s) :
    bytes = encode s := by
  obtain ⟨cs, hcs, rfl⟩ := Option.map_eq_some_iff.1 h
  rw [encode, String.toList_ofList]
  exact eq_encodeChars hcs

theorem display_encode (s : String) : display (encode s) = s := by
  simp [display, pieces_encode, Function.comp_def, Piece.shown]

end LaunchPlan.Text
