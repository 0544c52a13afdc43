import LaunchPlan.Proofs.Network.Spelling
import LaunchPlan.Proofs.Overlay.FirstUse
import Mathlib.Data.Set.Function
import Mathlib.Order.Bounds.Defs
import Mathlib.Probability.Distributions.Uniform

/-!
Random addresses, and the second address of a launch. Main statements: `bijOn_ofDraws`, the draws
make each address of the prefix in one way, `random_apply`, independent draws make all of them with
the same probability, `rollDistinct_eq`, of a sequence the first address is taken that is not
excluded, and `second_address`, a launch with two addresses has two different ones.
-/

namespace LaunchPlan

namespace MacAddress

/-- The addresses that may be drawn. -/
def drawable : Set MacAddress := {m | m.a = 0xCA ∧ m.b = 0xFE}

theorem ofDraws_mem (draws : Fin 8 → Digit) : ofDraws draws ∈ drawable := ⟨rfl, rfl⟩

theorem octets_ofDraws (draws : Fin 8 → Digit) :
    (ofDraws draws).octets = [0xCA, 0xFE, octet (draws 0) (draws 1), octet (draws 2) (draws 3),
      octet (draws 4) (draws 5), octet (draws 6) (draws 7)] := by
  simp only [ofDraws, octets, pack_pick]

theorem ofDraws_injective : Function.Injective ofDraws := by
  intro draws draws' hsame
  have hoctets := congrArg octets hsame
  rw [octets_ofDraws, octets_ofDraws] at hoctets
  simp only [List.cons.injEq, and_true, true_and] at hoctets
  obtain ⟨hc, hd, he, hf⟩ := hoctets
  obtain ⟨h0, h1⟩ := octet_injective hc
  obtain ⟨h2, h3⟩ := octet_injective hd
  obtain ⟨h4, h5⟩ := octet_injective he
  obtain ⟨h6, h7⟩ := octet_injective hf
  funext i
  fin_cases i <;> assumption

def highDigit (o : UInt8) : Digit := ⟨o.toNat / 16, Nat.div_lt_of_lt_mul o.toNat_lt⟩

def lowDigit (o : UInt8) : Digit := ⟨o.toNat % 16, Nat.mod_lt _ (by decide)⟩

theorem octet_halves (o : UInt8) : octet (highDigit o) (lowDigit o) = o := by
  apply UInt8.toNat_inj.1
  rw [toNat_octet]
  exact Nat.div_add_mod o.toNat 16

/-- The draws that make an address. -/
def draws (m : MacAddress) : Fin 8 → Digit :=
  ![highDigit m.c, lowDigit m.c, highDigit m.d, lowDigit m.d, highDigit m.e, lowDigit m.e,
    highDigit m.f, lowDigit m.f]

theorem octets_injective {m n : MacAddress} (h : m.octets = n.octets) : m = n := by
  cases m
  cases n
  simpa [octets] using h

theorem ofDraws_draws {m : MacAddress} (h : m ∈ drawable) : ofDraws m.draws = m := by
  obtain ⟨ha, hb⟩ := h
  apply octets_injective
  rw [octets_ofDraws]
  simp [draws, octets, octet_halves, ha, hb]

/-- Each address of the prefix is made by one sequence of draws. -/
theorem bijOn_ofDraws : Set.BijOn ofDraws Set.univ drawable :=
  ⟨fun draws _ => ofDraws_mem draws, ofDraws_injective.injOn,
    fun m hm => ⟨m.draws, Set.mem_univ _, ofDraws_draws hm⟩⟩

open scoped ENNReal

/-- Digits drawn one after the other, each without regard to those before it. -/
noncomputable def independentDraws : (n : Nat) → PMF (Fin n → Digit)
  | 0 => PMF.pure Fin.elim0
  | n + 1 => (PMF.uniformOfFintype Digit).bind fun digit =>
      (independentDraws n).map (Fin.cons digit)

theorem map_apply_of_injective {α β : Type} {f : α → β} (hf : f.Injective) (p : PMF α) (a : α) :
    p.map f (f a) = p a := by
  classical
  rw [PMF.map_apply, tsum_eq_single a]
  · exact if_pos rfl
  · intro other hother
    exact if_neg fun hsame => hother (hf hsame.symm)

theorem map_apply_eq_zero {α β : Type} {f : α → β} {p : PMF α} {b : β} (hb : ∀ a, f a ≠ b) :
    p.map f b = 0 := by
  classical
  rw [PMF.map_apply, ENNReal.tsum_eq_zero]
  intro a
  exact if_neg (hb a).symm

theorem independentDraws_apply {n : Nat} (draws : Fin n → Digit) :
    independentDraws n draws = (16 ^ n : ℝ≥0∞)⁻¹ := by
  induction n with
  | zero =>
    have hempty : draws = Fin.elim0 := Subsingleton.elim _ _
    rw [hempty, independentDraws, PMF.pure_apply, if_pos rfl, pow_zero, inv_one]
  | succ n ih =>
    -- Of all first digits only that of the sequence itself leads to it.
    have hothers : ∀ digit ≠ draws 0, PMF.uniformOfFintype Digit digit
        * (independentDraws n).map (Fin.cons digit) draws = 0 := by
      intro digit hdigit
      rw [map_apply_eq_zero, mul_zero]
      intro rest hrest
      apply hdigit
      rw [← hrest, Fin.cons_zero]
    have hrest : (independentDraws n).map (Fin.cons (draws 0)) draws
        = independentDraws n (Fin.tail draws) := by
      have hwhole := map_apply_of_injective (Fin.cons_right_injective (α := fun _ => Digit) (draws 0))
        (independentDraws n) (Fin.tail draws)
      rwa [Fin.cons_self_tail] at hwhole
    rw [independentDraws, PMF.bind_apply, tsum_eq_single (draws 0) hothers, hrest, ih,
      PMF.uniformOfFintype_apply, Fintype.card_fin, pow_succ', ENNReal.mul_inv (.inr (by simp))
        (.inr (by simp))]
    rfl

/-- The address that eight independent draws make. -/
noncomputable def random : PMF MacAddress := (independentDraws 8).map ofDraws

theorem random_apply {m : MacAddress} (h : m ∈ drawable) : random m = (16 ^ 8 : ℝ≥0∞)⁻¹ := by
  rw [← independentDraws_apply m.draws, random]
  nth_rewrite 1 [← ofDraws_draws h]
  exact map_apply_of_injective ofDraws_injective _ _

end MacAddress

namespace Digits

/-- The draws from `start` on whose address is not `other`. -/
def distinctDraws (s : Digits) (other : MacAddress) (start : Nat) : Set Nat :=
  {k | start ≤ k ∧ s.address k ≠ other}

variable {s : Digits} {other : MacAddress} {start n : Nat}

theorem isLeast_firstDistinct (h : ∃ k, start ≤ k ∧ s.address k ≠ other) :
    IsLeast (s.distinctDraws other start) (s.firstDistinct other start h) := by
  refine ⟨⟨s.le_firstDistinct other start h, s.address_firstDistinct other start h⟩, ?_⟩
  rintro k ⟨hk, hdistinct⟩
  apply Nat.not_lt.1
  intro hlt
  exact hdistinct (s.eq_of_lt_firstDistinct other start h hk hlt)

end Digits

namespace Dice

/-- A source gives the digits of a sequence up to the draw `n`. -/
def Follows (d : Dice) (s : Digits) (n : Nat) : Prop := ∀ i < 8 * (n + 1), d.digits i = s i

variable {d : Dice} {s : Digits} {other : MacAddress} {start n k : Nat}

theorem Follows.address_eq (h : d.Follows s n) (hk : k ≤ n) : d.digits.address k = s.address k := by
  unfold Digits.address
  congr 1
  funext i
  have := i.isLt
  exact h _ (by omega)

/-- Whatever a sequence goes on with, there are sources that begin as it does. -/
theorem exists_follows (s : Digits) (start n : Nat) : ∃ d : Dice, d.taken = start ∧ d.Follows s n := by
  let known : Array Digit := Array.ofFn fun i : Fin (8 * (n + 1)) => s i
  refine ⟨{ ofArray known with taken := start }, rfl, ?_⟩
  intro i hi
  have hknown : known[i]? = some (s i) := by
    simp [known, hi]
  show listed known i = s i
  simp [listed, hknown]

theorem rollDistinct_isLeast (d : Dice) (other : MacAddress) : ∃ n,
    IsLeast (d.digits.distinctDraws other d.taken) n ∧
      d.rollDistinct other = (d.digits.address n, { d with taken := n + 1 }) :=
  ⟨_, Digits.isLeast_firstDistinct (d.varied other d.taken), rfl⟩

/-- A source takes the first address of a sequence that is not excluded, once it gives the digits of
the sequence up to there. -/
theorem rollDistinct_eq (follows : d.Follows s n)
    (first : IsLeast (s.distinctDraws other d.taken) n) :
    d.rollDistinct other = (s.address n, { d with taken := n + 1 }) := by
  obtain ⟨k, hk, hroll⟩ := d.rollDistinct_isLeast other
  have hle : k ≤ n := hk.2 ⟨first.1.1, follows.address_eq (Nat.le_refl n) ▸ first.1.2⟩
  have hge : n ≤ k := first.2 ⟨hk.1.1, follows.address_eq hle ▸ hk.1.2⟩
  obtain rfl : k = n := Nat.le_antisymm hle hge
  rw [hroll, follows.address_eq (Nat.le_refl k)]

end Dice

namespace Options

/-- The draw from which on the second address is looked for. -/
def secondDraw (o : Options) (d : Dice) : Nat :=
  match o.mac with
  | .given _ => d.taken
  | .detect => d.taken + 1

/-- The first address is the one that is given, or the first that is drawn. The second is the next
that differs. -/
theorem addresses_spec (o : Options) (d : Dice) (asked : o.secondaryNetwork = true) :
    (∀ mac, o.mac = .given mac → (o.addresses d).1.1 = mac) ∧
    (o.mac = .detect → (o.addresses d).1.1 = d.digits.address d.taken) ∧
    ∃ n, IsLeast (d.digits.distinctDraws (o.addresses d).1.1 (o.secondDraw d)) n ∧
      (o.addresses d).1.2 = some (d.digits.address n) := by
  unfold addresses secondDraw
  cases o.mac with
  | given mac =>
    obtain ⟨n, hfirst, hroll⟩ := d.rollDistinct_isLeast mac
    simp only [asked, if_true, Setting.given.injEq]
    exact ⟨fun _ h => h, nofun, n, hfirst, by rw [hroll]⟩
  | detect =>
    obtain ⟨n, hfirst, hroll⟩ := d.roll.2.rollDistinct_isLeast d.roll.1
    simp only [asked, if_true]
    exact ⟨nofun, fun _ => rfl, n, hfirst, by rw [hroll]; rfl⟩

end Options

namespace Preparation

open MacAddress

theorem prepare_addresses {probe : Probe} {o : Options} {s t : Progress} {launch : Launch}
    (h : prepare probe o s = .ok launch t) :
    (launch.mac, launch.secondaryMac) = (o.addresses s.host.dice).1 := by
  obtain ⟨u, v, stages⟩ := prepare_stages h
  obtain ⟨_, _, -, hlaunch, -⟩ := complete_ok stages.last
  have hdice : v.host.dice = s.host.dice := by rw [stages.imaged]
  rw [hlaunch, hdice]
  rfl

/-- Eight digits make an address of the prefix, each address is made by one choice of them, and all
are as probable if the digits are. A second address is the first of any sequence that differs from
the one to be avoided, so a launch with two addresses has two different ones. -/
theorem second_address (probe : Probe) (o : Options) (h : Host) :
    (∀ draws : Fin 8 → Digit,
      (ofDraws draws).octets.map UInt8.toNat
        = [0xCA, 0xFE, 16 * (draws 0).val + (draws 1).val, 16 * (draws 2).val + (draws 3).val,
            16 * (draws 4).val + (draws 5).val, 16 * (draws 6).val + (draws 7).val] ∧
      ∀ i, digitAt? (draws i) = some (draws i)) ∧
    Set.BijOn ofDraws Set.univ {m | m.a = 0xCA ∧ m.b = 0xFE} ∧
    (∀ m : MacAddress, m.a = 0xCA → m.b = 0xFE → random m = (16 ^ 8 : ENNReal)⁻¹) ∧
    (∀ (s : Digits) (other : MacAddress) (start : Nat), (∃ k, start ≤ k ∧ s.address k ≠ other) →
      ∃ n, IsLeast {k | start ≤ k ∧ s.address k ≠ other} n ∧
        (∃ d : Dice, d.taken = start ∧ d.Follows s n) ∧
        ∀ d : Dice, d.taken = start → d.Follows s n →
          d.rollDistinct other = (s.address n, { d with taken := n + 1 })) ∧
    ∀ launch, (h.run (prepare probe o)).result = .ok launch → o.secondaryNetwork = true →
      (∀ mac, o.mac = .given mac → launch.mac = mac) ∧
      (o.mac = .detect → launch.mac = h.dice.digits.address h.dice.taken) ∧
      ∃ m n, launch.secondaryMac = some m ∧ m.a = 0xCA ∧ m.b = 0xFE ∧ m ≠ launch.mac ∧
        m = h.dice.digits.address n ∧
        IsLeast {k | o.secondDraw h.dice ≤ k ∧ h.dice.digits.address k ≠ launch.mac} n := by
  refine ⟨?octets, bijOn_ofDraws, fun m ha hb => random_apply ⟨ha, hb⟩, ?sequence, ?launched⟩
  case octets =>
    intro draws
    refine ⟨?_, fun i => digitAt?_draw (draws i)⟩
    rw [octets_ofDraws]
    simp [toNat_octet]
  case sequence =>
    intro s other start hdiffers
    have hfirst := Digits.isLeast_firstDistinct hdiffers
    refine ⟨_, hfirst, Dice.exists_follows s start _, ?_⟩
    rintro d rfl hfollows
    exact Dice.rollDistinct_eq hfollows hfirst
  case launched =>
    intro launch decided asked
    obtain ⟨t, hend, -⟩ := Host.run_ok decided
    have haddresses := prepare_addresses hend
    obtain ⟨hgiven, hdrawn, n, hfirst, hsecond⟩ := o.addresses_spec h.dice asked
    rw [show h.begin.host = h from rfl] at haddresses
    rw [← haddresses] at hgiven hdrawn hfirst hsecond
    exact ⟨hgiven, hdrawn, _, n, hsecond, rfl, rfl, hfirst.1.2, rfl, hfirst⟩

end Preparation

namespace Sample

/-- A host whose first three addresses are equal. -/
def repeating : Host := { complete with dice := .ofArray (Array.replicate 24 ⟨0, by decide⟩) }

/-- The sample options with two networks, and no address given for the first. -/
def twoNetworks : Options := { options with mac := .detect, secondaryNetwork := true }

end Sample

namespace Preparation

/-- Addresses are drawn until one differs from the first. -/
theorem second_address_sample :
    ∃ launch, (Sample.repeating.run (prepare (.known false) Sample.twoNetworks)).result
        = .ok launch ∧
      launch.mac = ⟨0xCA, 0xFE, 0, 0, 0, 0⟩ ∧
      launch.secondaryMac = some ⟨0xCA, 0xFE, 0x33, 0x33, 0x33, 0x33⟩ := by
  obtain ⟨launch, hdecided⟩ : ∃ launch,
      (Sample.repeating.run (prepare (.known false) Sample.twoNetworks)).result = .ok launch := by
    have hok : (Sample.repeating.run (prepare (.known false)
        Sample.twoNetworks)).result.toOption.isSome = true := by
      decide +kernel
    cases hresult : (Sample.repeating.run (prepare (.known false) Sample.twoNetworks)).result with
    | ok launch => exact ⟨launch, rfl⟩
    | error e =>
      rw [hresult] at hok
      cases hok
  obtain ⟨-, -, -, -, hlaunch⟩ := second_address (.known false) Sample.twoNetworks Sample.repeating
  obtain ⟨-, hmac, _, n, hsecond, -, -, -, rfl, hfirst⟩ := hlaunch launch hdecided rfl
  have hprimary : launch.mac = ⟨0xCA, 0xFE, 0, 0, 0, 0⟩ := (hmac rfl).trans (by decide +kernel)
  have hthird : n = 3 := by
    rw [hprimary] at hfirst
    refine hfirst.unique ⟨by decide +kernel, ?_⟩
    rintro k ⟨hk, hdiffers⟩
    apply Nat.not_lt.1
    intro hlt
    have hrepeats : ∀ k < 3, Sample.repeating.dice.digits.address k = ⟨0xCA, 0xFE, 0, 0, 0, 0⟩ := by
      decide +kernel
    exact hdiffers (hrepeats k hlt)
  rw [hthird] at hsecond
  exact ⟨launch, hdecided, hprimary, hsecond.trans (by decide +kernel)⟩

end Preparation

end LaunchPlan
