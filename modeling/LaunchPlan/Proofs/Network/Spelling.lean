import LaunchPlan.Error

/-!
The texts that spell an address. Main statements: `parse?_eq_some_iff`, these are six groups of two
digits with one colon between each two, and `render_of_parse?`, an address is written as the text
that it was read from, in small letters.
-/

namespace LaunchPlan.MacAddress

/-- The hexadecimal digits in the order of their values. -/
def smallDigits : List Char :=
  ['0', '1', '2', '3', '4', '5', '6', '7', '8', '9', 'a', 'b', 'c', 'd', 'e', 'f']

def hexDigits : List Char := smallDigits ++ ['A', 'B', 'C', 'D', 'E', 'F']

def IsGroup (group : List Char) : Prop := group.length = 2 ∧ ∀ c ∈ group, c ∈ hexDigits

theorem IsGroup.pair {group : List Char} (h : IsGroup group) : ∃ a b, group = [a, b] := by
  match group, h.1 with
  | [a, b], _ => exact ⟨a, b, rfl⟩

variable {c : Char} {n high low : Digit} {o : UInt8} {group : List Char} {m : MacAddress}
  {s : String} {groups : List (List Char)}

theorem mem_range_of_between {first last : Char} (hfirst : first ≤ c) (hlast : c ≤ last) :
    c ∈ (List.range' first.toNat (last.toNat + 1 - first.toNat)).map Char.ofNat := by
  have hlow : first.toNat ≤ c.toNat := hfirst
  have hhigh : c.toNat ≤ last.toNat := hlast
  refine List.mem_map.2 ⟨c.toNat, ?_, Char.ofNat_toNat c⟩
  rw [List.mem_range'_1]
  omega

/-- What a computation shows of each character in a list holds for a character of that list. -/
theorem of_all {cs : List Char} {p : Char → Prop} [DecidablePred p]
    (computed : (cs.all fun c => p c) = true) (hc : c ∈ cs) : p c :=
  of_decide_eq_true (List.all_eq_true.1 computed c hc)

theorem mem_hexDigits_of_digitValue? (h : digitValue? c = some n) : c ∈ hexDigits := by
  unfold digitValue? at h
  split at h
  · next hc => exact of_all (by decide) (mem_range_of_between hc.1 hc.2)
  split at h
  · next hc => exact of_all (by decide) (mem_range_of_between hc.1 hc.2)
  split at h
  · next hc => exact of_all (by decide) (mem_range_of_between hc.1 hc.2)
  · cases h

theorem digitChar_of_digitValue? (h : digitValue? c = some n) : digitChar n = c.toLower := by
  have hwritten := of_all (p := fun c => (digitValue? c).map digitChar = some c.toLower) (by decide)
    (mem_hexDigits_of_digitValue? h)
  rw [h] at hwritten
  exact Option.some.inj hwritten

theorem toNat_octet (high low : Digit) : (octet high low).toNat = 16 * high.val + low.val := by
  have hhigh := high.isLt
  have hlow := low.isLt
  rw [octet, UInt8.toNat_ofNat']
  omega

theorem octet?_pair {a b : Char} : octet? [a, b] = some o ↔
    ∃ high low, digitValue? a = some high ∧ digitValue? b = some low ∧ octet high low = o := by
  simp [octet?, Option.bind_eq_some_iff]

theorem exists_pair (h : octet? group = some o) : ∃ a b, group = [a, b] := by
  unfold octet? at h
  split at h
  · exact ⟨_, _, rfl⟩
  · cases h

theorem octetChars_octet (high low : Digit) :
    octetChars (octet high low) = [digitChar high, digitChar low] := by
  have hbound := low.isLt
  have hhigh : Fin.ofNat 16 ((octet high low).toNat / 16) = high := by
    apply Fin.ext
    have := high.isLt
    simp only [toNat_octet, Fin.ofNat]
    omega
  have hlow : Fin.ofNat 16 (octet high low).toNat = low := by
    apply Fin.ext
    simp only [toNat_octet, Fin.ofNat]
    omega
  rw [octetChars, hhigh, hlow]

theorem octetChars_of_octet? (h : octet? group = some o) :
    octetChars o = group.map Char.toLower := by
  obtain ⟨a, b, rfl⟩ := exists_pair h
  obtain ⟨high, low, ha, hb, rfl⟩ := octet?_pair.1 h
  rw [octetChars_octet, digitChar_of_digitValue? ha, digitChar_of_digitValue? hb]
  rfl

theorem parseChars?_eq_some_iff {cs : List Char} :
    parseChars? cs = some m ↔ (cs.splitOn ':').map octet? = m.octets.map some := by
  obtain ⟨a, b, c, d, e, f⟩ := m
  unfold parseChars?
  split
  · next hsplit =>
    simp only [hsplit, octets, List.map_cons, List.map_nil, List.cons.injEq, and_true,
      Option.bind_eq_bind, Option.bind_eq_some_iff, Option.pure_def, Option.some.injEq,
      MacAddress.mk.injEq]
    constructor
    · rintro ⟨_, ha, _, hb, _, hc, _, hd, _, he, _, hf, rfl, rfl, rfl, rfl, rfl, rfl⟩
      exact ⟨ha, hb, hc, hd, he, hf⟩
    · rintro ⟨ha, hb, hc, hd, he, hf⟩
      exact ⟨a, ha, b, hb, c, hc, d, hd, e, he, f, hf, rfl, rfl, rfl, rfl, rfl, rfl⟩
  · next hother =>
    constructor
    · intro h
      cases h
    · intro h
      simp only [octets, List.map_cons, List.map_nil, List.map_eq_cons_iff,
        List.map_eq_nil_iff] at h
      obtain ⟨a, _, hsplit, -, b, _, rfl, -, c, _, rfl, -, d, _, rfl, -, e, _, rfl, -, f, _, rfl, -,
        rfl⟩ := h
      exact absurd hsplit (hother a b c d e f)

theorem map_octetChars {os : List UInt8} (h : groups.map octet? = os.map some) :
    os.map octetChars = groups.map (List.map Char.toLower) := by
  induction groups generalizing os with
  | nil => simpa using h.symm
  | cons group rest ih =>
    cases os with
    | nil => cases h
    | cons o os =>
      obtain ⟨hgroup, hrest⟩ := List.cons.inj h
      rw [List.map_cons, List.map_cons, octetChars_of_octet? hgroup, ih hrest]

theorem map_intercalate (f : Char → Char) (separator : List Char) (groups : List (List Char)) :
    (List.intercalate separator groups).map f
      = List.intercalate (separator.map f) (groups.map (List.map f)) := by
  induction groups with
  | nil => rfl
  | cons group rest ih =>
    cases rest with
    | nil => simp [List.intercalate]
    | cons next rest => simp_all [List.intercalate_cons_cons]

/-- An address is written as the text that it was read from, in small letters. -/
theorem render_of_parse? (h : parse? s = some m) : m.render = s.toLower := by
  have hgroups := map_octetChars (parseChars?_eq_some_iff.1 h)
  have hlower : s.toLower.toList = s.toList.map Char.toLower := String.toList_map
  rw [← String.toList_inj, render, String.toList_ofList, renderChars, hgroups, hlower]
  calc List.intercalate [':'] ((s.toList.splitOn ':').map (List.map Char.toLower))
      = (List.intercalate [':'] (s.toList.splitOn ':')).map Char.toLower :=
        (map_intercalate Char.toLower [':'] _).symm
    _ = s.toList.map Char.toLower := by rw [List.intercalate_splitOn]

end LaunchPlan.MacAddress
