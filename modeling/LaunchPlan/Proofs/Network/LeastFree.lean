import LaunchPlan.Proofs.Network.Search
import LaunchPlan.Proofs.Overlay.FirstUse
import Mathlib.Order.Bounds.Defs

/-!
Which free port is found, and which ports are tried for it. Main statements: `trace_goesUp`, a search
asks for the ports of its window from the start on, each once, up to the first that is free,
`searchIn_findsLeast`, that is the least free one, and `free_port_least`, so it is in the search of a
host, and in both searches of a launch.
-/

namespace LaunchPlan

namespace Port

variable {free other : Port → Bool} {ports : List Port} {start p : Port}

/-- Ten ports from `start` on, or as many as there are up to the last one. -/
def reach (start : Port) : Set Port :=
  {p | start.toNat ≤ p.toNat ∧ p.toNat ≤ min (start.toNat + 9) 65535}

theorem mem_reach_iff : p ∈ reach start ↔ p ∈ window start := by
  have hlast := p.toNat_lt
  rw [mem_window_iff, windowSize]
  show _ ∧ _ ↔ _
  omega

/-! A search through any list of ports. -/

theorem probed_isPrefix : (searchIn free ports).probed <+: ports := by
  induction ports with
  | nil => exact List.nil_prefix
  | cons p rest ih =>
    rw [searchIn_cons]
    cases free p with
    | true => exact ⟨rest, rfl⟩
    | false => exact (List.prefix_cons_inj p).2 ih

theorem skipped_busy : ∀ p ∈ (searchIn free ports).skipped, free p = false := by
  induction ports with
  | nil => simp
  | cons q rest ih =>
    rw [searchIn_cons]
    cases hfree : free q with
    | true => simp
    | false => simpa [hfree] using ih

/-- Ports that are not tried make no difference to a search. -/
theorem searchIn_congr (same : ∀ p ∈ (searchIn free ports).probed, other p = free p) :
    searchIn other ports = searchIn free ports := by
  induction ports with
  | nil => rfl
  | cons p rest ih =>
    rw [searchIn_cons] at same
    rw [searchIn_cons, searchIn_cons]
    cases hfree : free p with
    | true =>
      have hother : other p = true := by
        rw [← hfree]
        exact same p (by simp [hfree])
      simp [hother]
    | false =>
      simp only [hfree, Bool.false_eq_true, if_false, List.forall_mem_cons] at same
      have hother : other p = false := same.1
      simp [hother, ih same.2]

/-! The search through a window. -/

theorem toNat_window (start : Port) :
    (window start).map UInt16.toNat
      = List.range' start.toNat (min windowSize (UInt16.size - start.toNat)) := by
  have hstart := start.toNat_lt
  rw [window, List.map_map, List.range'_eq_map_range]
  apply List.map_congr_left
  intro i hi
  rw [List.mem_range, windowSize, UInt16.size] at hi
  rw [Function.comp_apply, UInt16.toNat_ofNat']
  omega

theorem window_ascending (start : Port) : (window start).Pairwise fun p q => p.toNat < q.toNat := by
  have hascending : ((window start).map UInt16.toNat).Pairwise (· < ·) := by
    rw [toNat_window]
    exact List.pairwise_lt_range'
  exact List.pairwise_map.1 hascending

/-- The first ports of a window follow one another from the start on. -/
theorem toNat_front (front : ports <+: window start) :
    ports.map UInt16.toNat = List.range' start.toNat ports.length := by
  have hfront := front.map UInt16.toNat
  have hlength := hfront.length_le
  rw [List.prefix_iff_eq_take, toNat_window] at hfront
  rw [toNat_window, List.length_range'] at hlength
  rw [hfront, List.take_range'_of_length_ge hlength, List.length_map]

/-- How a search goes through a window, whatever the test remembers from call to call. The test is
asked for the ports from the start on, upward and one after the other, for none twice, and for none
of another window; the search is over with the first yes. -/
structure GoesUp {σ : Type} (test : Port → StateM σ Bool) (memory : σ) (start : Port)
    (found : Option Port) (t : Trace σ) : Prop where
  asks : Asks test memory (window start) found t
  upward : t.asked.map (·.1.toNat) = List.range' start.toNat t.asked.length
  once : (t.asked.map Prod.fst).Nodup
  within : ∀ call ∈ t.asked, call.1 ∈ reach start

theorem trace_goesUp {σ : Type} (test : Port → StateM σ Bool) (memory : σ) (start : Port) :
    GoesUp test memory start (trace test memory (window start)).1
      (trace test memory (window start)).2 := by
  have hasks := trace_asks test memory (window start)
  generalize trace test memory (window start) = run at hasks
  have hupward := toNat_front hasks.inOrder
  refine ⟨hasks, ?_, ?_, ?_⟩
  · rw [List.map_map, List.length_map] at hupward
    exact hupward
  · have hdistinct : ((run.2.asked.map Prod.fst).map UInt16.toNat).Pairwise (· ≠ ·) := by
      rw [hupward]
      exact List.nodup_range'
    exact hdistinct.of_map UInt16.toNat fun p q hne heq => hne (congrArg UInt16.toNat heq)
  · intro call hcall
    exact mem_reach_iff.2 (hasks.inOrder.subset (List.mem_map_of_mem hcall))

theorem found_isLeast (found : (searchIn free (window start)).found = some p) :
    IsLeast {q | q ∈ reach start ∧ free q = true} p := by
  rw [searchIn_found, List.find?_eq_some_iff_append] at found
  obtain ⟨hfree, before, after, hwindow, hbusy⟩ := found
  have hascending := window_ascending start
  rw [hwindow, List.pairwise_append, List.pairwise_cons] at hascending
  refine ⟨⟨mem_reach_iff.2 (by simp [hwindow]), hfree⟩, ?_⟩
  rintro q ⟨hq, hfreeq⟩
  rw [mem_reach_iff, hwindow, List.mem_append, List.mem_cons] at hq
  rcases hq with hbefore | rfl | hafter
  · have hbusyq : free q = false := by simpa using hbusy q hbefore
    exact absurd hfreeq (by simp [hbusyq])
  · exact UInt16.le_refl q
  · exact UInt16.le_iff_toNat_le.2 (Nat.le_of_lt (hascending.2.1.1 q hafter))

theorem found_none_iff :
    (searchIn free (window start)).found = none ↔ ∀ p ∈ reach start, free p = false := by
  rw [searchIn_found, List.find?_eq_none]
  simp only [mem_reach_iff, Bool.not_eq_true]

theorem found_iff_isLeast :
    (searchIn free (window start)).found = some p
      ↔ IsLeast {q | q ∈ reach start ∧ free q = true} p := by
  constructor
  · exact found_isLeast
  · intro hleast
    cases hfound : (searchIn free (window start)).found with
    | none =>
      have hbusy := found_none_iff.1 hfound p hleast.1.1
      exact absurd hleast.1.2 (by simp [hbusy])
    | some q =>
      have hq := found_isLeast hfound
      have hle : q ≤ p := hq.2 hleast.1
      have hge : p ≤ q := hleast.2 hq.1
      rw [UInt16.le_antisymm hle hge]

/-- A search tries the ports from its start on, each once, until one is free, and none of another
window. -/
structure FindsLeast (free : Port → Bool) (start : Port) (s : Search) : Prop where
  found : ∀ p, s.found = some p ↔ IsLeast {q | q ∈ reach start ∧ free q = true} p
  exhausted : s.found = none ↔ ∀ p ∈ reach start, free p = false
  ascending : s.probed.map UInt16.toNat = List.range' start.toNat s.probed.length
  within : ∀ p ∈ s.probed, p ∈ reach start
  skipped : ∀ p ∈ s.skipped, free p = false
  unprobed : ∀ other : Port → Bool, (∀ p ∈ s.probed, other p = free p) →
    searchIn other (window start) = s

theorem searchIn_findsLeast (free : Port → Bool) (start : Port) :
    FindsLeast free start (searchIn free (window start)) where
  found _ := found_iff_isLeast
  exhausted := found_none_iff
  ascending := toNat_front probed_isPrefix
  within _ hp := mem_reach_iff.2 (probed_isPrefix.subset hp)
  skipped := skipped_busy
  unprobed _ same := searchIn_congr same

/-- The two ports of a launch lie in windows that do not meet, and the debugger's in neither. -/
theorem reach_apart {p q : Port} (serial : p ∈ reach serialStart) (ssh : q ∈ reach sshStart) :
    p ≠ q ∧ p ≠ debugger ∧ q ≠ debugger := by
  have hserial : 8990 ≤ p.toNat := serial.1
  have hssh : 2222 ≤ q.toNat ∧ q.toNat ≤ 2231 := ssh
  have hdebugger : debugger.toNat = 2159 := rfl
  refine ⟨?_, ?_, ?_⟩
  · rintro rfl
    omega
  · rintro rfl
    omega
  · rintro rfl
    omega

theorem pair_ok {held : List Port} {serialPort sshPort : Port}
    (h : pair held = .ok (serialPort, sshPort)) :
    (search held serialStart).found = some serialPort ∧
      (search held sshStart).found = some sshPort := by
  unfold pair at h
  split at h
  · cases h
  · cases h
  · next hserial hssh =>
    cases h
    exact ⟨hserial, hssh⟩

/-- Above the ports that are kept for the system, the least free port is the least that is not
held. -/
theorem isLeast_notHeld {held : List Port} (unreserved : firstUnreserved ≤ start)
    (found : (search held start).found = some p) :
    IsLeast {q | q ∈ reach start ∧ q ∉ held} p := by
  have hsame : {q | q ∈ reach start ∧ q ∉ held} = {q | q ∈ reach start ∧ isFree held q = true} := by
    ext q
    refine and_congr_right fun hq => ?_
    exact (isFree_iff (UInt16.le_trans unreserved (UInt16.le_iff_toNat_le.2 hq.1))).symm
  rw [hsame]
  exact found_isLeast found

theorem debug_searchEvents (held : List Port) (start : Port) :
    (searchEvents held start).filter (·.level = .debug)
      = (search held start).skipped.map .portSkipped := by
  have hskipped : ∀ event ∈ (search held start).skipped.map Event.portSkipped,
      decide (event.level = .debug) = true := by
    simp [Event.level]
  rw [searchEvents, List.filter_append, List.filter_eq_self.2 hskipped]
  split
  · simp [Event.level]
  · simp

end Port

namespace Preparation

theorem freePort_run (h : Host) (start : Port) :
    h.run (freePort start) = ⟨match (Port.search h.held start).found with
      | some port => .ok port
      | none => .error (.portExhausted start (Port.windowEnd start)), h,
      ⟨Port.searchEvents h.held start, [], 0⟩⟩ := by
  have hheld : h.begin.host.held = h.held := rfl
  rw [Host.run_eq, freePort_apply, hheld]
  cases (Port.search h.held start).found with
  | some port => rfl
  | none => rfl

theorem freePort_ok_iff {h : Host} {start p : Port} :
    (h.run (freePort start)).result = .ok p ↔ (Port.search h.held start).found = some p := by
  rw [freePort_run]
  cases (Port.search h.held start).found <;> simp

theorem freePort_error_iff {h : Host} {start : Port} :
    (∃ stop, (h.run (freePort start)).result = .error (.portExhausted start stop))
      ↔ (Port.search h.held start).found = none := by
  rw [freePort_run]
  cases (Port.search h.held start).found <;> simp

/-- A search asks its way up through a window to the first free port, and so to the least one if a
port is free or not once and for all. The search of a host is such a one, and logs each port before
the one that it finds. Both ports of a launch are found so, and neither is the other or the
debugger's. -/
theorem free_port_least (probe : Probe) (o : Options) (h : Host) {σ : Type}
    (test : Port → StateM σ Bool) (memory : σ) (free : Port → Bool) (start : Port) :
    let run := h.run (freePort start)
    let isFree := Port.isFree h.held
    let asked := Port.trace test memory (Port.window start)
    Port.GoesUp test memory start asked.1 asked.2 ∧
    Port.FindsLeast free start (Port.searchIn free (Port.window start)) ∧
    (run.host = h ∧
      (∀ p, run.result = .ok p ↔ IsLeast {q | q ∈ Port.reach start ∧ isFree q = true} p) ∧
      ((∃ stop, run.result = .error (.portExhausted start stop)) ↔
        ∀ p ∈ Port.reach start, isFree p = false) ∧
      run.journal.events.filter (·.level = .debug)
        = (Port.searchIn isFree (Port.window start)).skipped.map .portSkipped) ∧
    (∀ launch, (h.run (prepare probe o)).result = .ok launch →
      IsLeast {p | (8990 ≤ p.toNat ∧ p.toNat ≤ 8999) ∧ p ∉ h.held} launch.serialPort ∧
      IsLeast {p | (2222 ≤ p.toNat ∧ p.toNat ≤ 2231) ∧ p ∉ h.held} launch.sshPort ∧
      launch.serialPort ≠ launch.sshPort ∧ launch.serialPort ≠ Port.debugger ∧
      launch.sshPort ≠ Port.debugger) := by
  intro run isFree asked
  have hrun : run = _ := freePort_run h start
  refine ⟨Port.trace_goesUp test memory start, Port.searchIn_findsLeast free start, ?_, ?_⟩
  · refine ⟨by rw [hrun], fun p => ?_, ?_, ?_⟩
    · exact freePort_ok_iff.trans Port.found_iff_isLeast
    · exact freePort_error_iff.trans Port.found_none_iff
    · rw [hrun]
      exact Port.debug_searchEvents h.held start
  · intro launch decided
    obtain ⟨t, hend, -⟩ := Host.run_ok decided
    obtain ⟨u, v, stages⟩ := prepare_stages hend
    obtain ⟨serialPort, sshPort, hports, hlaunch, -⟩ := complete_ok stages.last
    rw [stages.imaged] at hports
    obtain ⟨hserial, hssh⟩ := Port.pair_ok hports
    have hfirst := Port.isLeast_notHeld (by decide) hserial
    have hsecond := Port.isLeast_notHeld (by decide) hssh
    rw [hlaunch]
    exact ⟨hfirst, hsecond, Port.reach_apart hfirst.1.1 hsecond.1.1⟩

/-- At the top of the range the window is short, and with the first serial port held the second one
is found. -/
theorem free_port_least_sample :
    let h : Host := { Sample.complete with held := [8990, 65534] }
    ∃ launch, (h.run (prepare (.known false) Sample.options)).result = .ok launch ∧
      IsLeast {p | (8990 ≤ p.toNat ∧ p.toNat ≤ 8999) ∧ p ∉ h.held} launch.serialPort ∧
      launch.serialPort = 8991 ∧ (h.run (freePort 65534)).result = .ok 65535 := by
  intro h
  have hdecided : (h.run (prepare (.known false) Sample.options)).result
      = .ok (Sample.options.launch "m" (.bios (.ofString "/v.u-boot.rom")) (.ofString "/v.img")
        (⟨0x52, 0x54, 0, 0, 0, 1⟩, none) 8991 2222 false) := by
    decide +kernel
  obtain ⟨-, -, ⟨-, hresult, -⟩, hports⟩ := free_port_least (.known false) Sample.options h
    (fun p => return Port.isFree h.held p) () (Port.isFree h.held) 65534
  have htop : (Port.searchIn (Port.isFree h.held) (Port.window 65534)).found = some 65535 := by
    decide +kernel
  exact ⟨_, hdecided, (hports _ hdecided).1, rfl, (hresult 65535).2 (Port.found_isLeast htop)⟩

end Preparation

end LaunchPlan
