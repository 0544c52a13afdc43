import LaunchPlan.Network.Port

/-!
The calls that a search for a free port makes. Main statements: `trace_asks`, whatever the test
remembers from call to call, it is asked for port after port, once each, and not again once it has
said yes, and `searchIn_cons`, what this comes to for a test without memory.
-/

namespace LaunchPlan

namespace Port

/-- What a search has done so far: which ports the test was asked for, with its answers, and which
were skipped. The test keeps a memory between the calls. -/
structure Trace (σ : Type) where
  memory : σ
  asked : List (Port × Bool)
  skipped : List Port

variable {σ : Type}

namespace Trace

def start (memory : σ) : Trace σ := ⟨memory, [], []⟩

def ask (test : Port → StateM σ Bool) (p : Port) : StateM (Trace σ) Bool := fun t =>
  let answer := test p t.memory
  (answer.1, { t with memory := answer.2, asked := t.asked ++ [(p, answer.1)] })

def skip (p : Port) : StateM (Trace σ) Unit :=
  modify fun t => { t with skipped := t.skipped ++ [p] }

end Trace

/-- What a search finds, and the record of its calls. -/
def trace (test : Port → StateM σ Bool) (memory : σ) (ports : List Port) :
    Option Port × Trace σ :=
  firstFree (Trace.ask test) Trace.skip ports (.start memory)

/-- The test gives these answers, one call after the other, and is left with this memory. -/
def Answers (test : Port → StateM σ Bool) : σ → List (Port × Bool) → σ → Prop
  | memory, [], left => left = memory
  | memory, (p, free) :: calls, left =>
    (test p memory).1 = free ∧ Answers test (test p memory).2 calls left

/-- The trace of a search that started where another one was. -/
def Trace.after (t u : Trace σ) : Trace σ := ⟨u.memory, t.asked ++ u.asked, t.skipped ++ u.skipped⟩

section Trace

variable {test : Port → StateM σ Bool} {memory : σ} {p : Port} {rest ports : List Port}

theorem firstFree_cons (t : Trace σ) :
    firstFree (Trace.ask test) Trace.skip (p :: rest) t =
      let t' : Trace σ := ⟨(test p t.memory).2, t.asked ++ [(p, (test p t.memory).1)], t.skipped⟩
      if (test p t.memory).1 then (some p, t')
      else firstFree (Trace.ask test) Trace.skip rest { t' with skipped := t.skipped ++ [p] } := by
  simp only [firstFree, bind, StateT.bind, Trace.ask]
  cases (test p t.memory).1 <;> rfl

/-- A search does the same whatever was done before it. -/
theorem firstFree_from (t : Trace σ) :
    firstFree (Trace.ask test) Trace.skip ports t =
      ((trace test t.memory ports).1, t.after (trace test t.memory ports).2) := by
  induction ports generalizing t with
  | nil =>
    have hafter : t.after (.start t.memory) = t := by simp [Trace.after, Trace.start]
    show (none, t) = (none, t.after (.start t.memory))
    rw [hafter]
  | cons p rest ih =>
    unfold trace
    rw [firstFree_cons, firstFree_cons]
    cases hfree : (test p t.memory).1 with
    | true => simp [Trace.start, Trace.after, hfree]
    | false =>
      simp only [Trace.start, hfree, Bool.false_eq_true, if_false]
      rw [ih, ih]
      simp [Trace.after]

theorem trace_nil : trace test memory [] = (none, .start memory) := rfl

theorem trace_cons :
    trace test memory (p :: rest) =
      let answer := test p memory
      if answer.1 then (some p, ⟨answer.2, [(p, true)], []⟩)
      else
        let later := trace test answer.2 rest
        (later.1, ⟨later.2.memory, (p, false) :: later.2.asked, p :: later.2.skipped⟩) := by
  unfold trace
  rw [firstFree_cons]
  cases hfree : (test p memory).1 with
  | true => simp [Trace.start, hfree]
  | false =>
    simp only [Trace.start, hfree, Bool.false_eq_true, if_false]
    rw [firstFree_from]
    rfl

end Trace

/-- How a search through `ports` goes. Nothing is asked but these calls, in this order: no to each
port that is skipped, and yes to the one that is found, or no to every port there is. -/
structure Asks (test : Port → StateM σ Bool) (memory : σ) (ports : List Port)
    (found : Option Port) (t : Trace σ) : Prop where
  answers : Answers test memory t.asked t.memory
  inOrder : t.asked.map Prod.fst <+: ports
  stops : ∀ p, found = some p → t.asked = t.skipped.map (·, false) ++ [(p, true)]
  exhausts : found = none → t.skipped = ports ∧ t.asked = ports.map (·, false)

theorem trace_asks (test : Port → StateM σ Bool) (memory : σ) (ports : List Port) :
    Asks test memory ports (trace test memory ports).1 (trace test memory ports).2 := by
  induction ports generalizing memory with
  | nil => exact ⟨rfl, List.nil_prefix, by simp [trace_nil], fun _ => ⟨rfl, rfl⟩⟩
  | cons p rest ih =>
    have hrest := ih (test p memory).2
    rw [trace_cons]
    cases hfree : (test p memory).1 with
    | true =>
      simp only [hfree, if_true]
      exact ⟨⟨hfree, rfl⟩, ⟨rest, rfl⟩, by simp, by simp⟩
    | false =>
      simp only [hfree, Bool.false_eq_true, if_false]
      refine ⟨⟨hfree, hrest.answers⟩, (List.prefix_cons_inj p).2 hrest.inOrder, ?_, ?_⟩
      · intro q hq
        rw [hrest.stops q hq]
        rfl
      · intro hnone
        obtain ⟨hskipped, hasked⟩ := hrest.exhausts hnone
        exact ⟨by rw [hskipped], by rw [hasked]; rfl⟩

/-- A test that says yes at its third call, whatever it is asked for. -/
example : trace (fun _ calls => (calls == 2, calls + 1)) 0 (window 8990)
    = (some 8992, ⟨3, [(8990, false), (8991, false), (8992, true)], [8990, 8991]⟩) := by
  rfl

/-- A search by a test that always gives the same answer for a port. -/
structure Search where
  probed : List Port
  skipped : List Port
  found : Option Port
  deriving DecidableEq

def searchIn (free : Port → Bool) (ports : List Port) : Search :=
  let run := trace (fun p => pure (free p)) () ports
  ⟨run.2.asked.map Prod.fst, run.2.skipped, run.1⟩

def search (held : List Port) (start : Port) : Search := searchIn (isFree held) (window start)

variable {free : Port → Bool} {p : Port} {rest : List Port}

@[simp] theorem searchIn_nil : searchIn free [] = ⟨[], [], none⟩ := rfl

theorem searchIn_cons :
    searchIn free (p :: rest) =
      if free p then ⟨[p], [], some p⟩
      else
        let later := searchIn free rest
        ⟨p :: later.probed, p :: later.skipped, later.found⟩ := by
  unfold searchIn
  rw [trace_cons]
  cases free p with
  | true => rfl
  | false => rfl

end Port

end LaunchPlan
