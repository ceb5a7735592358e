import EightBit.Proofs.Machine.Run

/-!
# Runs Cut at Breakpoints

A run without a limit stops at breakpoints, and can be called again from there. Whoever calls it until
it stops for another reason gets to the machine where the run ends without breakpoints, for the same
reason. None of the calls is in vain, and none of them passes a breakpoint: since the first instruction
of a call is executed even at a breakpoint, it is the only one that may be at one.

## Main Definitions

- `SamePanel`: the control panels of the two runs, which differ in breakpoints and in what earlier calls
  have left.
- `Legs`: a run that is called until it stops for another reason than a breakpoint.
- `Orderly`: what one of the calls has done.

## Main Statements

- `turn_next_beside`, `turn_finish_beside`: away from a breakpoint, both runs do the same round.
- `arrives_of_loop`: from any round on, the calls get where the run without breakpoints gets.
- `run_breakpoints`: calling a run again and again is the same as having no breakpoints.
-/

namespace EightBit

/-! ## Control panels -/

/-- The control panel with these breakpoints instead of none, perhaps after earlier calls. The run is
going on, outside step mode and with no stop requested. -/
structure SamePanel (breakpoints : List Int) (bare panel : Control) : Prop where
  same : panel = { bare with
    breakpoints, lastReason := panel.lastReason, suspension := panel.suspension }
  unset : bare.breakpoints = []
  running : bare.running = true
  free : bare.stepMode = false
  calm : bare.stopRequested = false

namespace SamePanel

variable {breakpoints : List Int} {bare panel : Control} (panels : SamePanel breakpoints bare panel)
include panels

theorem breakpoints_eq : panel.breakpoints = breakpoints := by
  rw [panels.same]

theorem panel_free : panel.stepMode = false := by
  rw [panels.same]
  exact panels.free

theorem panel_calm : panel.stopRequested = false := by
  rw [panels.same]
  exact panels.calm

/-- The end of a call and the beginning of the next one change the last reason and the suspension
alone. -/
theorem again (reason : StopReason) : SamePanel breakpoints bare
    { panel with
      lastReason := some reason, running := true, stopRequested := false, suspension := none } where
  same := by
    rw [panels.same]
    simp [panels.running, panels.calm]
  unset := panels.unset
  running := panels.running
  free := panels.free
  calm := panels.calm

end SamePanel

namespace Machine

variable {σ : Type} {env : Env σ} {breakpoints : List Int}

/-- The machine with these breakpoints. -/
def withBreakpoints (breakpoints : List Int) (m : Machine σ) : Machine σ :=
  { m with control := { m.control with breakpoints } }

/-! ## Calls -/

/-- One call of a run: the machine in front of it, the reason that was returned, and the machine behind
it. -/
structure Leg (σ : Type) where
  start : Machine σ
  reason : StopReason
  finish : Machine σ

/-- **A run that is called again** each time it has stopped at a breakpoint: the calls, and the reason
and the machine of the last one. -/
inductive Legs (env : Env σ) (patience : Nat) :
    Machine σ → List (Leg σ) → StopReason → Machine σ → Prop
  | last {m reason after} (ran : run env patience none m = .ok (.done reason) after)
    (other : reason ≠ .breakpoint) : Legs env patience m [⟨m, reason, after⟩] reason after
  | again {m after legs reason final}
    (ran : run env patience none m = .ok (.done .breakpoint) after)
    (rest : Legs env patience after legs reason final) :
    Legs env patience m (⟨m, .breakpoint, after⟩ :: legs) reason final

/-- **What a call has done**: steps of the machine that it has started, of which only the first may have
been at a breakpoint. If it has stopped at one, it has done an instruction at least, and left a ready
processor there. -/
structure Orderly (env : Env σ) (breakpoints : List Int) (leg : Leg σ) : Prop where
  steps : ∃ count last failure? final,
    Course env (begun leg.start) count last failure? final ∧ SameState leg.finish final ∧
      (∀ done now, Tries env (begun leg.start) count failure? done now → 0 < done →
        now.cpu.regs.ip ∉ breakpoints) ∧
      (leg.reason = .breakpoint → 0 < count)
  stopped : leg.reason = .breakpoint →
    leg.finish.cpu.mode = .ready ∧ leg.finish.cpu.regs.ip ∈ breakpoints

/-! ## Rounds beside each other -/

section Rounds

variable (uniform : env.Uniform fun _ => SamePanel breakpoints) {behind steps : Nat} {m n : Machine σ}
include uniform

variable (beside : Beside (fun _ => SamePanel breakpoints) m n)
  (clear : n.cpu.mode = .ready → 0 < steps → n.cpu.regs.ip ∉ breakpoints)
include beside clear

omit uniform in
/-- Where no condition is met without breakpoints, none is met with them. -/
theorem checks?_beside (checked : checks? m none behind = none) : checks? n none steps = none := by
  cases beside with
  | intro panels =>
    have goesOn := (checks?_eq_none_iff panels.calm).1 checked
    rw [checks?_eq_none_iff panels.panel_calm, panels.breakpoints_eq]
    exact ⟨goesOn.ready, nofun, clear goesOn.ready⟩

/-- Away from a breakpoint, a round that goes on does so with breakpoints too. -/
theorem turn_next_beside {now : Machine σ} (next : turn env none behind m = .ok .next now) :
    ∃ other, turn env none steps n = .ok .next other ∧
      Beside (fun _ => SamePanel breakpoints) now other := by
  have unmet : checks? m none behind = none → checks? n none steps = none :=
    checks?_beside beside clear
  have paired := paired_step uniform (fun _ _ _ tied => tied) beside
  cases beside with
  | intro panels =>
    obtain ⟨checked, stepped⟩ := (turn_next_iff panels.free).1 next
    rw [stepped] at paired
    obtain ⟨other, stepped', beside⟩ := paired.of_ok
    exact ⟨other, (turn_next_iff panels.panel_free).2 ⟨unmet checked, stepped'⟩, beside⟩

/-- Away from a breakpoint, a round that finishes does so with breakpoints too, for the same reason. -/
theorem ends_beside {reason : StopReason} {ended : Machine σ}
    (ends : Ends env none behind m reason ended) :
    reason ≠ .breakpoint ∧ ∃ other, Ends env none steps n reason other ∧
      Beside (fun _ => SamePanel breakpoints) ended other := by
  have unmet : checks? m none behind = none → checks? n none steps = none :=
    checks?_beside beside clear
  have paired := paired_step uniform (fun _ _ _ tied => tied) beside
  -- each way to end is one way on the other machine, but for a breakpoint, which is not set there
  cases ends with
  | check met =>
    cases beside with
    | intro panels =>
      cases (checks?_eq_some_iff panels.calm).1 met with
      | halt halted =>
        refine ⟨nofun, _, .check ?_, .intro panels⟩
        exact (checks?_eq_some_iff panels.panel_calm).2 (.halt halted)
      | fault faulted =>
        refine ⟨nofun, _, .check ?_, .intro panels⟩
        exact (checks?_eq_some_iff panels.panel_calm).2 (.fault faulted)
      | timeout _ isLimit => cases isLimit
      | breakpoint _ _ _ here =>
        rw [panels.unset] at here
        cases here
  | fault checked failed =>
    rw [failed] at paired
    -- the fault is left on both machines, and their control panels are no matter to it
    obtain ⟨other, failed', beside⟩ := paired.of_error
    refine ⟨nofun, noted _ other, .fault (unmet checked) failed', ?_⟩
    cases beside with
    | intro panels => exact .intro panels
  | aborted checked failed =>
    rw [failed] at paired
    obtain ⟨other, failed', beside⟩ := paired.of_error
    have aborted := Ends.aborted (unmet checked) failed'
    cases beside with
    | intro panels =>
      -- nobody has requested a stop, so that the abort is reported as one
      rw [if_neg (by simp [panels.calm])]
      rw [if_neg (by simp [panels.panel_calm])] at aborted
      exact ⟨nofun, _, aborted, .intro panels⟩

theorem turn_finish_beside {reason : StopReason} {ended : Machine σ}
    (finish : turn env none behind m = .ok (.finish reason) ended) :
    reason ≠ .breakpoint ∧ ∃ other, turn env none steps n = .ok (.finish reason) other ∧
      Beside (fun _ => SamePanel breakpoints) ended other := by
  have free : m.control.stepMode = false ∧ n.control.stepMode = false := by
    cases beside with
    | intro panels => exact ⟨panels.free, panels.panel_free⟩
  obtain ⟨other, found, ends, beside⟩ :=
    ends_beside uniform beside clear ((turn_finish_iff free.1).1 finish)
  exact ⟨other, found, (turn_finish_iff free.2).2 ends, beside⟩

end Rounds

/-! ## From a round on -/

/-- **From the round on, the calls get to this machine**, within so many rounds of each call: the run
ends there for this reason, or it stops at a breakpoint and is called again. -/
def Arrives (env : Env σ) (patience fuel steps : Nat) (m : Machine σ) (reason : StopReason)
    (goal : Machine σ) : Prop :=
  ∃ count ≤ fuel, ∃ cause stopped after, Loop env none count steps m cause stopped ∧
    conclude cause stopped = .ok () after ∧
    (cause = reason ∧ reason ≠ .breakpoint ∧ SameState goal after ∨
      cause = .breakpoint ∧ ∃ legs final, Legs env patience after legs reason final ∧
        SameState goal final)

/-- Calls that get to a machine from the first round of a run. -/
theorem Arrives.exists_legs {patience fuel : Nat} {m goal : Machine σ} {reason : StopReason}
    (arrives : Arrives env patience fuel 0 (begun m) reason goal) (within : fuel ≤ patience)
    (idle : m.control.running = false) :
    ∃ legs final, Legs env patience m legs reason final ∧ SameState goal final := by
  obtain ⟨count, below, cause, stopped, after, loop, concludes, ends⟩ := arrives
  have ran : run env patience none m = .ok (.done cause) after :=
    (run_done_iff idle).2 ⟨count, Nat.le_trans below within, stopped, loop, concludes⟩
  obtain ⟨rfl, other, same⟩ | ⟨rfl, legs, final, rest, same⟩ := ends
  · exact ⟨_, _, .last ran other, same⟩
  · exact ⟨_, _, .again ran rest, same⟩

/-- A completed round in front. -/
theorem Arrives.next {patience fuel steps : Nat} {m now goal : Machine σ} {reason : StopReason}
    (first : turn env none steps m = .ok .next now)
    (arrives : Arrives env patience fuel (steps + 1) now reason goal) :
    Arrives env patience (fuel + 1) steps m reason goal := by
  obtain ⟨count, below, cause, stopped, after, loop, concludes, ends⟩ := arrives
  exact ⟨count + 1, Nat.succ_le_succ below, cause, stopped, after, .next first loop, concludes, ends⟩

/-- The next call begins beside the run without breakpoints. -/
theorem begun_concluded_beside {m n : Machine σ} (reason : StopReason)
    (beside : Beside (fun _ => SamePanel breakpoints) m n) :
    Beside (fun _ => SamePanel breakpoints) m (begun (concluded reason n)) := by
  cases beside with
  | intro panels => exact .intro (panels.again reason)

section Cut

variable {patience : Nat} {reason : StopReason} {m goal : Machine σ}

/-- At a breakpoint the run ends and is called again, beside the same machine. So it is enough to look at
rounds away from breakpoints. -/
theorem arrives_of_clear {fuel : Nat} (within : fuel ≤ patience)
    (away : ∀ {steps n}, Beside (fun _ => SamePanel breakpoints) m n →
      (n.cpu.mode = .ready → 0 < steps → n.cpu.regs.ip ∉ breakpoints) →
      Arrives env patience fuel steps n reason goal)
    {steps : Nat} {n : Machine σ} (beside : Beside (fun _ => SamePanel breakpoints) m n) :
    Arrives env patience fuel steps n reason goal := by
  by_cases stops : n.cpu.mode = .ready ∧ 0 < steps ∧ n.cpu.regs.ip ∈ breakpoints
  · obtain ⟨ready, positive, here⟩ := stops
    have panel : n.control.stepMode = false ∧ n.control.stopRequested = false ∧
        n.control.breakpoints = breakpoints := by
      cases beside with
      | intro panels => exact ⟨panels.panel_free, panels.panel_calm, panels.breakpoints_eq⟩
    obtain ⟨free, calm, rfl⟩ := panel
    have met : Met none n.control.breakpoints steps n.cpu .breakpoint :=
      .breakpoint ready (fun _ isLimit => nomatch isLimit) positive here
    have finish : turn env none steps n = .ok (.finish .breakpoint) n :=
      (turn_finish_iff free).2 (.check ((checks?_eq_some_iff calm).2 met))
    -- the first instruction of the next call is executed even here
    have again : Arrives env patience fuel 0 (begun (concluded .breakpoint n)) reason goal := by
      apply away (begun_concluded_beside _ beside)
      intro _ positive
      exact absurd positive (Nat.lt_irrefl 0)
    exact ⟨0, Nat.zero_le _, _, _, _, .finish finish, conclude_eq _ calm,
      .inr ⟨rfl, again.exists_legs within rfl⟩⟩
  · exact away beside fun ready positive here => stops ⟨ready, positive, here⟩

/-- **The cut run**: from any round on, calls with breakpoints get where the run without them gets. -/
theorem arrives_of_loop (uniform : env.Uniform fun _ => SamePanel breakpoints)
    {count behind steps : Nat} {n ended : Machine σ} (loop : Loop env none count behind m reason ended)
    (concludes : conclude reason ended = .ok () goal) (within : count ≤ patience)
    (beside : Beside (fun _ => SamePanel breakpoints) m n) :
    Arrives env patience count steps n reason goal := by
  -- the rounds of the run without breakpoints; the number of steps starts anew with each call
  induction loop generalizing n steps with
  | finish last =>
    refine arrives_of_clear within (fun beside clear => ?_) beside
    obtain ⟨other, stopped, finish, beside⟩ := turn_finish_beside uniform beside clear last
    cases beside with
    | intro panels =>
      rw [conclude_eq _ panels.calm] at concludes
      cases concludes
      exact ⟨0, Nat.le_refl 0, _, _, _, .finish finish, conclude_eq _ panels.panel_calm,
        .inl ⟨rfl, other, .intro trivial⟩⟩
  | next first rest ih =>
    refine arrives_of_clear within (fun beside clear => ?_) beside
    obtain ⟨other, next, beside⟩ := turn_next_beside uniform beside clear first
    exact .next next (ih concludes (Nat.le_of_succ_le within) beside)

end Cut

/-! ## Each call -/

section Each

variable (uniform : env.Uniform fun _ => SamePanel breakpoints) {patience : Nat} {m after : Machine σ}

theorem Beside.through {tie : Control → Control → Prop} {one other : Machine σ}
    (first : Beside (fun _ => tie) m one) (second : Beside (fun _ => tie) m other) :
    Beside (fun _ a b => ∃ c, tie c a ∧ tie c b) one other := by
  cases first with
  | intro tied =>
    cases second with
    | intro tied' => exact .intro ⟨_, tied, tied'⟩

include uniform

/-- Two machines that are beside the same one without breakpoints take the same steps. -/
theorem follows_of_uniform :
    Follows env breakpoints fun a b =>
      ∃ bare, SamePanel breakpoints bare a ∧ SamePanel breakpoints bare b where
  quiet := by
    rintro a b ⟨bare, panels, -⟩
    exact ⟨panels.panel_free, panels.panel_calm, panels.breakpoints_eq⟩
  steps := by
    intro m i _ beside
    cases beside with
    | @intro control journal tied =>
      -- the machine in between has the bare panel, and each of the two is compared with it
      obtain ⟨bare, left, right⟩ := tied
      let between : Machine σ := { m with control := bare }
      have first : Beside (fun _ => SamePanel breakpoints) between m := .intro left
      have second : Beside (fun _ => SamePanel breakpoints) between { m with control, journal } :=
        .intro right
      have paired := paired_step uniform (fun _ _ _ tied => tied) first
      have paired' := paired_step uniform (fun _ _ _ tied => tied) second
      -- of what comes of the step on the three machines, each is compared with the bare one
      generalize step env m = result at paired
      generalize step env between = middle at paired paired'
      cases paired with
      | ok beside =>
        obtain ⟨other, stepped, beside'⟩ := paired'.of_ok
        rw [stepped]
        exact .ok (beside.through beside')
      | error beside =>
        obtain ⟨other, failed, beside'⟩ := paired'.of_error
        rw [failed]
        exact .error (beside.through beside')

/-- **One call** is orderly, and leaves a control panel with which the next one is. -/
theorem orderly_of_ran {reason : StopReason} {bare : Control} (idle : m.control.running = false)
    (panels : SamePanel breakpoints bare (begun m).control)
    (ran : run env patience none m = .ok (.done reason) after) :
    Orderly env breakpoints ⟨m, reason, after⟩ ∧ after.control.running = false ∧
      ∃ bare, SamePanel breakpoints bare (begun after).control := by
  obtain ⟨count, -, ended, loop, concludes⟩ := (run_done_iff idle).1 ran
  obtain ⟨last, failure?, final, explains, beside⟩ :=
    loop.explains (follows_of_uniform uniform) (i := begun m) (.intro ⟨bare, panels, panels⟩)
  obtain ⟨course, -, tried, verdict⟩ := explains
  simp only [Nat.zero_add] at tried verdict
  cases beside with
  | intro tied =>
    obtain ⟨bare, panels, -⟩ := tied
    rw [conclude_eq reason panels.panel_calm] at concludes
    obtain ⟨-, rfl⟩ := EStateM.Result.ok.inj concludes
    -- a call stops at a breakpoint by its condition alone
    have stops (stopped : reason = .breakpoint) :
        Met none breakpoints count ended.cpu .breakpoint := by
      subst stopped
      cases verdict with
      | met met => exact met
    refine ⟨⟨⟨count, last, failure?, _, course, .intro trivial, ?_, ?_⟩, ?_⟩, rfl, bare, panels.again _⟩
    · exact fun done now tries positive => (tried done now tries).elsewhere positive
    · intro stopped
      cases stops stopped with
      | breakpoint ready below positive here => exact positive
    · intro stopped
      cases stops stopped with
      | breakpoint ready below positive here => exact ⟨ready, here⟩

/-- **All calls** are orderly, each by what the one in front of it has left. -/
theorem Legs.orderly {legs : List (Leg σ)} {reason : StopReason}
    (cut : Legs env patience m legs reason after) {bare : Control} (idle : m.control.running = false)
    (panels : SamePanel breakpoints bare (begun m).control) :
    ∀ leg ∈ legs, Orderly env breakpoints leg := by
  induction cut generalizing bare with
  | last ran other =>
    intro leg mem
    rw [List.mem_singleton.1 mem]
    exact (orderly_of_ran uniform idle panels ran).1
  | again ran rest ih =>
    obtain ⟨orderly, idle, bare, panels⟩ := orderly_of_ran uniform idle panels ran
    intro leg mem
    cases mem with
    | head => exact orderly
    | tail _ mem => exact ih idle panels leg mem

end Each

/-! ## Whole runs -/

/-- **Breakpoints do not change where a run gets.** If a run without breakpoints ends, then after a number
of calls a run with breakpoints ends too, for the same reason and with the same machine but for control
panel and journal. Each call is orderly: it makes progress, and it does not pass a breakpoint. -/
theorem run_breakpoints (uniform : env.Uniform fun _ => SamePanel breakpoints) {patience : Nat}
    {m after : Machine σ} {reason : StopReason} (idle : m.control.running = false)
    (free : m.control.stepMode = false)
    (ran : run env patience none (m.withBreakpoints []) = .ok (.done reason) after) :
    ∃ legs final, Legs env patience (m.withBreakpoints breakpoints) legs reason final ∧
      SameState after final ∧ ∀ leg ∈ legs, Orderly env breakpoints leg := by
  have alone : (m.withBreakpoints []).control.running = false := idle
  obtain ⟨count, within, ended, loop, concludes⟩ := (run_done_iff alone).1 ran
  have panels : SamePanel breakpoints (begun (m.withBreakpoints [])).control
      (begun (m.withBreakpoints breakpoints)).control := ⟨rfl, rfl, rfl, free, rfl⟩
  have arrives : Arrives env patience count 0 (begun (m.withBreakpoints breakpoints)) reason after :=
    arrives_of_loop uniform loop concludes within (.intro panels)
  obtain ⟨legs, final, cut, same⟩ := arrives.exists_legs within idle
  exact ⟨legs, final, cut, same, cut.orderly uniform idle panels⟩

/-- Shows a number and counts it down to zero, then halts. -/
def countdown : Machine Nat :=
  { memory := beginning [(Instr.move .registerImmediate).opcode, 0, 2,
      (Instr.move .addressRegister).opcode, 0xC0, 0, (Instr.unary .dec).opcode, 0,
      (Instr.jump .notZero .direct).opcode, 3, Instr.halt.opcode]
    observers := { listeners := [.display, .hook 0] }
    notes := 0 }

/-- A breakpoint in the loop, where runs stop on every way round. -/
theorem run_breakpoints_of_countdown :
    ∃ after stopped, counting.Uniform (fun _ => SamePanel [3]) ∧ countdown.control.running = false ∧
      countdown.control.stepMode = false ∧
      run counting 10 none (countdown.withBreakpoints []) = .ok (.done .halt) after ∧
      run counting 10 none (countdown.withBreakpoints [3]) = .ok (.done .breakpoint) stopped ∧
      ∃ legs final, Legs counting 10 (countdown.withBreakpoints [3]) legs .halt final ∧
        SameState after final ∧ ∀ leg ∈ legs, Orderly counting [3] leg := by
  obtain ⟨after, ran, -⟩ := exists_of_comesTo counting 10 none (countdown.withBreakpoints [])
    (.done .halt) (fun _ => true) (by decide +kernel)
  obtain ⟨stopped, cut, -⟩ := exists_of_comesTo counting 10 none (countdown.withBreakpoints [3])
    (.done .breakpoint) (fun _ => true) (by decide +kernel)
  exact ⟨after, stopped, uniform_counting _, rfl, rfl, ran, cut,
    run_breakpoints (uniform_counting _) rfl rfl ran⟩

end Machine

end EightBit
