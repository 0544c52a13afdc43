import LaunchPlan.Network.Mac

/-!
Random addresses. Each takes eight digits of an endless sequence, and one that is to differ from a
given address is drawn until it does; the sequences are those in which that comes to an end. Main
statements: `address_firstDistinct`, what is drawn differs, and `eq_of_lt_firstDistinct`, nothing
before it does.
-/

namespace LaunchPlan

abbrev Digits := Nat → Digit

namespace Digits

/-- The address that the digits of one draw make; draws are counted from zero. -/
def address (s : Digits) (n : Nat) : MacAddress := .ofDraws fun i => s (8 * n + i)

theorem c_address (s : Digits) (n : Nat) :
    (s.address n).c = MacAddress.octet (s (8 * n)) (s (8 * n + 1)) := MacAddress.pack_pick _ _

/-- The first draw from `start` on whose address is not `other`; those before `n` are known to
give it. -/
def searchDistinct (s : Digits) (other : MacAddress) (start : Nat)
    (h : ∃ k, start ≤ k ∧ s.address k ≠ other) (n : Nat) (hle : start ≤ n)
    (hn : ∀ j, start ≤ j → j < n → s.address j = other) : Nat :=
  if hd : s.address n = other then
    searchDistinct s other start h (n + 1) (Nat.le_succ_of_le hle) fun j hs hj => by
      rcases Nat.lt_succ_iff_lt_or_eq.1 hj with hj | rfl
      · exact hn j hs hj
      · exact hd
  else n
termination_by Classical.choose h - n
decreasing_by
  obtain ⟨hs, hne⟩ := Classical.choose_spec h
  have hge : n ≤ Classical.choose h := Nat.not_lt.1 fun hlt => hne (hn _ hs hlt)
  have hne' : Classical.choose h ≠ n := fun he => hne (he ▸ hd)
  omega

/-- The first draw from `start` on whose address is not `other`. -/
def firstDistinct (s : Digits) (other : MacAddress) (start : Nat)
    (h : ∃ k, start ≤ k ∧ s.address k ≠ other) : Nat :=
  s.searchDistinct other start h start (Nat.le_refl _) fun _ hs hj =>
    absurd hs (Nat.not_le_of_gt hj)

theorem searchDistinct_spec (s : Digits) (other : MacAddress) (start : Nat)
    (h : ∃ k, start ≤ k ∧ s.address k ≠ other) (n : Nat) (hle : start ≤ n)
    (hn : ∀ j, start ≤ j → j < n → s.address j = other) :
    start ≤ s.searchDistinct other start h n hle hn ∧
      s.address (s.searchDistinct other start h n hle hn) ≠ other ∧
      ∀ j, start ≤ j → j < s.searchDistinct other start h n hle hn → s.address j = other := by
  fun_induction searchDistinct s other start h n hle hn with
  | case1 n hle hn hd ih => exact ih
  | case2 n hle hn hd => exact ⟨hle, hd, hn⟩

theorem le_firstDistinct (s : Digits) (other : MacAddress) (start : Nat)
    (h : ∃ k, start ≤ k ∧ s.address k ≠ other) : start ≤ s.firstDistinct other start h :=
  (s.searchDistinct_spec other start h start _ _).1

theorem address_firstDistinct (s : Digits) (other : MacAddress) (start : Nat)
    (h : ∃ k, start ≤ k ∧ s.address k ≠ other) :
    s.address (s.firstDistinct other start h) ≠ other :=
  (s.searchDistinct_spec other start h start _ _).2.1

theorem eq_of_lt_firstDistinct (s : Digits) (other : MacAddress) (start : Nat)
    (h : ∃ k, start ≤ k ∧ s.address k ≠ other) {j : Nat} (hs : start ≤ j)
    (hj : j < s.firstDistinct other start h) : s.address j = other :=
  (s.searchDistinct_spec other start h start _ _).2.2 j hs hj

end Digits

/-- A source of random addresses in which no address repeats forever. -/
structure Dice where
  digits : Digits
  taken : Nat
  varied : ∀ other n, ∃ k, n ≤ k ∧ digits.address k ≠ other

namespace Dice

def roll (d : Dice) : MacAddress × Dice :=
  (d.digits.address d.taken, { d with taken := d.taken + 1 })

/-- A random address that is not `other`, and the source after it. -/
def rollDistinct (d : Dice) (other : MacAddress) : MacAddress × Dice :=
  let n := d.digits.firstDistinct other d.taken (d.varied other d.taken)
  (d.digits.address n, { d with taken := n + 1 })

/-- Digits that start as listed; after those they count the draws. -/
def listed (ds : Array Digit) : Digits := fun i =>
  ds[i]?.getD ⟨i / 8 % 16, Nat.mod_lt _ (by decide)⟩

theorem varied_listed (ds : Array Digit) (other : MacAddress) (n : Nat) :
    ∃ k, n ≤ k ∧ (listed ds).address k ≠ other := by
  have hdigit : ∀ k, ds.size ≤ k → (listed ds (8 * k)).val = k % 16 := by
    intro k hk
    have hout : ds[8 * k]? = none := Array.getElem?_eq_none (by omega)
    have hdiv : 8 * k / 8 = k := by omega
    simp [listed, hout, hdiv]
  apply Classical.byContradiction
  intro hnone
  have hall : ∀ k, n ≤ k → (listed ds).address k = other := fun k hk =>
    Classical.byContradiction fun hne => hnone ⟨k, hk, hne⟩
  have heq := (hall (n + ds.size) (by omega)).trans (hall (n + ds.size + 1) (by omega)).symm
  have hc := congrArg MacAddress.c heq
  rw [Digits.c_address, Digits.c_address] at hc
  have hfirst := (MacAddress.octet_injective hc).1
  have hval := congrArg Fin.val hfirst
  rw [hdigit _ (by omega), hdigit _ (by omega)] at hval
  omega

/-- A source whose first digits are listed. -/
def ofArray (ds : Array Digit) : Dice := ⟨listed ds, 0, varied_listed ds⟩

end Dice

end LaunchPlan
