import LaunchPlan.Proofs.Network.LeastFree

/-!
What an exhausted search says about the ports that it tried. Main statements:
`mem_span_windowEnd_iff`, the span that is named has all ports of the window but for the last port
there is, and `exhausted_span_iff`, so a message names the ports that were tried exactly if the
window ends below that port.
-/

namespace LaunchPlan

namespace Port

variable {free : Port → Bool} {ports : List Port} {start p : Port}

/-- The last port there is. No port comes behind it that could end a span. -/
def last : Port := 65535

/-- The ports from `start` on, up to `stop`, which is not one of them. -/
def span (start stop : Port) : Set Port := {p | start ≤ p ∧ p < stop}

/-- A search that finds nothing goes through all ports that it is given. -/
theorem probed_of_exhausted (exhausted : (searchIn free ports).found = none) :
    (searchIn free ports).probed = ports := by
  induction ports with
  | nil => rfl
  | cons p rest ih =>
    rw [searchIn_cons] at exhausted ⊢
    cases hfree : free p with
    | true => simp [hfree] at exhausted
    | false =>
      simp only [hfree, Bool.false_eq_true, if_false] at exhausted ⊢
      exact congrArg (p :: ·) (ih exhausted)

theorem toNat_windowEnd (start : Port) :
    (windowEnd start).toNat = min (start.toNat + 10) 65535 := by
  rw [windowEnd, windowSize, UInt16.size, UInt16.toNat_ofNat']
  omega

theorem mem_span_windowEnd_iff :
    p ∈ span start (windowEnd start) ↔ p ∈ window start ∧ p ≠ last := by
  have htop : p ≠ last ↔ p.toNat ≠ 65535 := by
    rw [Ne, ← UInt16.toNat_inj]
    exact Iff.rfl
  have hbound := p.toNat_lt
  have hend := toNat_windowEnd start
  show start ≤ p ∧ p < windowEnd start ↔ _
  rw [mem_window_iff, htop, windowSize, UInt16.le_iff_toNat_le, UInt16.lt_iff_toNat_lt, hend]
  omega

theorem last_mem_window_iff : last ∈ window start ↔ 65535 < start.toNat + 10 := by
  have hlast : last.toNat = 65535 := rfl
  have hstart := start.toNat_lt
  rw [mem_window_iff, windowSize, hlast]
  omega

/-- The span up to the end of a window has all ports of the window, if the last port there is is not
one of them. -/
theorem span_eq_window_iff :
    span start (windowEnd start) = {p | p ∈ window start} ↔ start.toNat + 10 ≤ 65535 := by
  rw [Set.ext_iff]
  constructor
  · intro hsame
    apply Nat.not_lt.1
    intro hlong
    have hnamed : last ∈ span start (windowEnd start) :=
      (hsame last).2 (last_mem_window_iff.2 hlong)
    exact (mem_span_windowEnd_iff.1 hnamed).2 rfl
  · intro hfits q
    apply mem_span_windowEnd_iff.trans
    apply and_iff_left_of_imp
    rintro hq rfl
    have hlong := last_mem_window_iff.1 hq
    omega

end Port

namespace Preparation

open Port

theorem message_portExhausted (start stop : Port) :
    Failure.message (.portExhausted start stop)
      = "could not find a free TCP port in " ++ toString start.toNat ++ ".."
        ++ toString stop.toNat := rfl

theorem freePort_error {h : Host} {start : Port} {e : Failure}
    (failed : (h.run (freePort start)).result = .error e) :
    e = .portExhausted start (windowEnd start) ∧ (search h.held start).found = none := by
  rw [freePort_run] at failed
  cases hfound : (search h.held start).found with
  | some port =>
    rw [hfound] at failed
    cases failed
  | none =>
    rw [hfound] at failed
    cases failed
    exact ⟨rfl, rfl⟩

/-- A search that finds nothing has tried its whole window, and names it in its message by a start
and by an end that is itself not meant. The last port there is cannot be named so: it is missing from
what is named wherever it was tried. -/
theorem exhausted_span_iff (free : Port → Bool) (h : Host) (start : Port) :
    ((searchIn free (window start)).found = none →
      let probed : Set Port := {p | p ∈ (searchIn free (window start)).probed}
      probed = reach start ∧ span start (windowEnd start) = probed \ {last} ∧
      (span start (windowEnd start) = probed ↔ start.toNat + 10 ≤ 65535)) ∧
    ∀ e, (h.run (freePort start)).result = .error e →
      e = .portExhausted start (windowEnd start) ∧
      e.message = "could not find a free TCP port in " ++ toString start.toNat ++ ".."
        ++ toString (min (start.toNat + 10) 65535) ∧
      .windowExhausted start (windowEnd start) ∈ (h.run (freePort start)).journal.events ∧
      (searchIn (isFree h.held) (window start)).found = none := by
  constructor
  · intro exhausted probed
    have hprobed : probed = {p | p ∈ window start} := by
      rw [show probed = {p | p ∈ (searchIn free (window start)).probed} from rfl,
        probed_of_exhausted exhausted]
    refine ⟨?_, ?_, ?_⟩
    · rw [hprobed]
      ext p
      exact mem_reach_iff.symm
    · rw [hprobed]
      ext p
      exact mem_span_windowEnd_iff
    · rw [hprobed]
      exact span_eq_window_iff
  · intro e failed
    obtain ⟨rfl, hfound⟩ := freePort_error failed
    refine ⟨rfl, ?_, ?_, hfound⟩
    · rw [message_portExhausted, toNat_windowEnd]
    · rw [freePort_run]
      simp [searchEvents, hfound]

end Preparation

/-- A host where the last six ports are held. -/
def Sample.crowded : Host :=
  { Sample.complete with held := [65530, 65531, 65532, 65533, 65534, 65535] }

namespace Preparation

open Port

theorem exhausted_span_sample :
    (Sample.crowded.run (freePort 65530)).result = .error (.portExhausted 65530 65535) ∧
      span 65530 65535 = {p | p ∈ (search Sample.crowded.held 65530).probed} \ {last} := by
  have hfailed : (Sample.crowded.run (freePort 65530)).result
      = .error (.portExhausted 65530 65535) := by
    decide +kernel
  obtain ⟨hspan, hnamed⟩ := exhausted_span_iff (isFree Sample.crowded.held) Sample.crowded 65530
  obtain ⟨-, -, -, hfound⟩ := hnamed _ hfailed
  exact ⟨hfailed, (hspan hfound).2.1⟩

/-- The port that was tried last is not in the span that is named. -/
theorem exhausted_span_lacks_last :
    (Sample.crowded.run (freePort 65530)).result = .error (.portExhausted 65530 65535) ∧
      Failure.message (.portExhausted 65530 65535)
        = "could not find a free TCP port in 65530..65535" ∧
      (65535 : Port) ∈ (search Sample.crowded.held 65530).probed ∧
      (65535 : Port) ∉ span 65530 65535 := by
  have hexcluded : ¬((65535 : Port) < 65535) := by decide
  refine ⟨?_, ?_, ?_, fun hnamed => hexcluded hnamed.2⟩
  · decide +kernel
  · decide +kernel
  · decide +kernel

end Preparation

end LaunchPlan
