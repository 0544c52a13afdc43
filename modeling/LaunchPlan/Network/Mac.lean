/-!
Ethernet addresses: their text, and those made of random digits. Text is six groups of two
hexadecimal digits between colons; letters may be of either case and are written small. Main
statements: `parse?_render`, an address is read back from its text, `octet_injective`, each pair of
digits makes an octet of its own, and `pack_pick`, two draws make the octet of their digits.
-/

namespace LaunchPlan

structure MacAddress where
  a : UInt8
  b : UInt8
  c : UInt8
  d : UInt8
  e : UInt8
  f : UInt8
  deriving DecidableEq

abbrev Digit := Fin 16

namespace MacAddress

def octets (m : MacAddress) : List UInt8 := [m.a, m.b, m.c, m.d, m.e, m.f]

/-- The value of a hexadecimal digit of either case. -/
def digitValue? (c : Char) : Option Digit :=
  if '0' ≤ c ∧ c ≤ '9' then some (Fin.ofNat 16 (c.toNat - '0'.toNat))
  else if 'a' ≤ c ∧ c ≤ 'f' then some (Fin.ofNat 16 (c.toNat - 'a'.toNat + 10))
  else if 'A' ≤ c ∧ c ≤ 'F' then some (Fin.ofNat 16 (c.toNat - 'A'.toNat + 10))
  else none

/-- The hexadecimal digit of a value, with small letters. -/
def digitChar (n : Digit) : Char :=
  if n.val < 10 then Char.ofNat (n.val + '0'.toNat) else Char.ofNat (n.val - 10 + 'a'.toNat)

def octet (high low : Digit) : UInt8 := UInt8.ofNat (16 * high.val + low.val)

def octetChars (o : UInt8) : List Char :=
  [digitChar (Fin.ofNat 16 (o.toNat / 16)), digitChar (Fin.ofNat 16 o.toNat)]

/-- The octet that a group of exactly two digits spells. -/
def octet? : List Char → Option UInt8
  | [high, low] => do return octet (← digitValue? high) (← digitValue? low)
  | _ => none

def parseChars? (cs : List Char) : Option MacAddress :=
  match cs.splitOn ':' with
  | [a, b, c, d, e, f] => do
    return ⟨← octet? a, ← octet? b, ← octet? c, ← octet? d, ← octet? e, ← octet? f⟩
  | _ => none

def parse? (s : String) : Option MacAddress := parseChars? s.toList

def renderChars (m : MacAddress) : List Char :=
  List.intercalate [':'] (m.octets.map octetChars)

def render (m : MacAddress) : String := String.ofList m.renderChars

/-- The digits that random addresses are made of. -/
def alphabet : List Char :=
  ['0', '1', '2', '3', '4', '5', '6', '7', '8', '9', 'a', 'b', 'c', 'd', 'e', 'f']

/-- The digit at a place of the alphabet, if there is one and it has a value. -/
def digitAt? (place : Nat) : Option Digit := alphabet[place]?.bind digitValue?

/-- The value of the digit at a place, and zero where there is none. -/
def pick (place : Nat) : UInt8 :=
  match digitAt? place with
  | some digit => UInt8.ofNat digit.val
  | none => 0

/-- The octet with one value in its upper half and one in its lower. -/
def pack (high low : UInt8) : UInt8 := high <<< 4 ||| low

/-- The address that eight draws make. Its first two octets belong to no vendor, and say so. -/
def ofDraws (draws : Fin 8 → Digit) : MacAddress :=
  ⟨0xCA, 0xFE, pack (pick (draws 0)) (pick (draws 1)), pack (pick (draws 2)) (pick (draws 3)),
    pack (pick (draws 4)) (pick (draws 5)), pack (pick (draws 6)) (pick (draws 7))⟩

theorem octet_injective {a b c d : Digit} (h : octet a b = octet c d) : a = c ∧ b = d := by
  have := congrArg UInt8.toNat h
  simp only [octet, UInt8.toNat_ofNat'] at this
  have := a.isLt
  have := b.isLt
  have := c.isLt
  have := d.isLt
  exact ⟨Fin.ext (by omega), Fin.ext (by omega)⟩

theorem digitAt?_draw (draw : Digit) : digitAt? draw = some draw := by
  revert draw; decide

theorem pick_draw (draw : Digit) : pick draw = UInt8.ofNat draw.val := by
  rw [pick, digitAt?_draw]

theorem pack_pick (high low : Digit) : pack (pick high) (pick low) = octet high low := by
  rw [pick_draw, pick_draw]
  revert high low; decide

theorem digitValue?_digitChar (n : Digit) : digitValue? (digitChar n) = some n := by
  revert n; decide

theorem octet?_octetChars (o : UInt8) : octet? (octetChars o) = some o := by
  have h := o.toNat_lt
  have hlow : (Fin.ofNat 16 o.toNat).val = o.toNat % 16 := rfl
  have hhigh : (Fin.ofNat 16 (o.toNat / 16)).val = o.toNat / 16 % 16 := rfl
  simp only [octetChars, octet?, digitValue?_digitChar, Option.bind_eq_bind, Option.bind_some,
    Option.pure_def, Option.some.injEq, octet, hlow, hhigh]
  apply UInt8.toNat_inj.1
  rw [UInt8.toNat_ofNat']
  omega

theorem digitChar_ne_colon (n : Digit) : digitChar n ≠ ':' := by
  revert n; decide

theorem colon_notMem_octetChars (o : UInt8) : ':' ∉ octetChars o := by
  simp [octetChars, (digitChar_ne_colon _).symm]

/-- An address is read back from its text. -/
theorem parse?_render (m : MacAddress) : parse? m.render = some m := by
  have hgroups : m.renderChars.splitOn ':' = m.octets.map octetChars := by
    unfold renderChars
    refine List.splitOn_intercalate ':' ?_ (by simp [octets])
    intro group hgroup
    obtain ⟨o, -, rfl⟩ := List.mem_map.1 hgroup
    exact colon_notMem_octetChars o
  simp [parse?, render, parseChars?, hgroups, octets, octet?_octetChars]

theorem render_injective {m n : MacAddress} (h : m.render = n.render) : m = n := by
  have hread := congrArg parse? h
  rw [parse?_render, parse?_render] at hread
  exact Option.some.inj hread

end MacAddress

end LaunchPlan
