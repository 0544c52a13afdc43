import LaunchPlan.Proofs.Preparation.Stage

/-!
Which ports are found. Main statements: `search_found_iff`, a search finds a port exactly if one of
its window is free, and `pair_outcome`, the two ports of a launch are found, or the first window that
holds no free one is named.
-/

namespace LaunchPlan

namespace Port

variable {held : List Port} {start p : Port}

/-- What a search finds is the first free port. -/
theorem searchIn_found (free : Port → Bool) (ports : List Port) :
    (searchIn free ports).found = ports.find? free := by
  induction ports with
  | nil => rfl
  | cons p rest ih =>
    rw [searchIn_cons]
    cases hfree : free p with
    | true => simp [hfree]
    | false => simp [hfree, ih]

/-- Beyond the ports that are kept for the system, those are free that are not held. -/
theorem isFree_iff (unreserved : firstUnreserved ≤ p) : isFree held p = true ↔ p ∉ held := by
  have hpositive : p ≠ 0 := by
    rintro rfl
    exact absurd unreserved (by decide)
  have hunreserved : ¬p < firstUnreserved := UInt16.not_lt.2 unreserved
  by_cases hheld : p ∈ held
  · simp [isFree, bindFault?, hpositive, hunreserved, hheld]
  · simp [isFree, bindFault?, hpositive, hunreserved, hheld]

/-- A port of a window is free. -/
def HasFree (held : List Port) (start : Port) : Prop :=
  ∃ p : Port, start.toNat ≤ p.toNat ∧ p.toNat < start.toNat + windowSize ∧ p ∉ held

theorem search_found_iff (unreserved : firstUnreserved ≤ start) :
    (∃ p, (search held start).found = some p) ↔ HasFree held start := by
  have hfree (p : Port) (hp : start.toNat ≤ p.toNat) : isFree held p = true ↔ p ∉ held :=
    isFree_iff (UInt16.le_trans unreserved (UInt16.le_iff_toNat_le.2 hp))
  rw [← Option.isSome_iff_exists, search, searchIn_found, List.find?_isSome]
  constructor
  · rintro ⟨p, hwindow, hp⟩
    obtain ⟨hle, hlt⟩ := mem_window_iff.1 hwindow
    exact ⟨p, hle, hlt, (hfree p hle).1 hp⟩
  · rintro ⟨p, hle, hlt, hp⟩
    exact ⟨p, mem_window_iff.2 ⟨hle, hlt⟩, (hfree p hle).2 hp⟩

theorem search_found_none_iff (unreserved : firstUnreserved ≤ start) :
    (search held start).found = none ↔ ¬HasFree held start := by
  rw [← search_found_iff unreserved, ← Option.not_isSome_iff_eq_none, Option.isSome_iff_exists]

/-- How the search for the two ports of a launch ends. -/
inductive PairOutcome (held : List Port) : Except Failure (Port × Port) → Prop
  | serial (full : ¬HasFree held serialStart) : PairOutcome held (.error (.portExhausted 8990 9000))
  | ssh (free : HasFree held serialStart) (full : ¬HasFree held sshStart) :
      PairOutcome held (.error (.portExhausted 2222 2232))
  | both {ports : Port × Port} (serial : HasFree held serialStart) (ssh : HasFree held sshStart) :
      PairOutcome held (.ok ports)

theorem pair_outcome (held : List Port) : PairOutcome held (pair held) := by
  have hserial : firstUnreserved ≤ serialStart := by decide
  have hssh : firstUnreserved ≤ sshStart := by decide
  unfold pair
  cases hfirst : (search held serialStart).found with
  | none => exact .serial ((search_found_none_iff hserial).1 hfirst)
  | some serialPort =>
    have hfree : HasFree held serialStart := (search_found_iff hserial).1 ⟨serialPort, hfirst⟩
    cases hsecond : (search held sshStart).found with
    | none => exact .ssh hfree ((search_found_none_iff hssh).1 hsecond)
    | some sshPort => exact .both hfree ((search_found_iff hssh).1 ⟨sshPort, hsecond⟩)

end Port

end LaunchPlan
