import EightBit.Proofs.Machine.Run

/-!
# Runs in Two Parts

A run with a limit that has used it up can be continued by another run, and the two together come to
what one run with the sum of the limits does. The second run forgets how many instructions the first one
has done, so the two count differently; all that this could change is the first instruction, which is
executed even at a breakpoint.

Runs with a limit always come back: they end, or wait for a key.

## Main Definitions

- `Env.Apart`: observers and attached devices that have nothing to do with the control panel.
- `Attuned`: the control panels of the two runs.
- `Continues`: the two machines at the same round, of which one may have been continued.

## Main Statements

- `coupled_rounds`: from a round on, both runs do the same.
- `run_returns`: a run with a limit comes back.
- `run_split`: a run with a limit can be split in two.
-/

namespace EightBit

/-! ## Control panels -/

/-- Observers and attached devices have nothing to do with the control panel: whatever it shows, they do
the same, and they leave it as it is. -/
def Env.Apart {σ : Type} (env : Env σ) : Prop :=
  ∀ left right, env.Uniform fun _ a b => a = left ∧ b = right

/-- The control panels of two runs that go on outside step mode, with the same breakpoints and with no
stop requested. -/
structure Attuned (a b : Control) : Prop where
  breakpoints : b.breakpoints = a.breakpoints
  free : a.stepMode = false
  otherFree : b.stepMode = false
  calm : a.stopRequested = false
  otherCalm : b.stopRequested = false

namespace Machine

variable {σ α : Type} {env : Env σ}

theorem Beside.tied {tie : Tie} {m n : Machine σ} (beside : Beside tie m n) :
    tie m.cpu.mode m.control n.control := by
  cases beside with
  | intro tied => exact tied

/-- What leaves two control panels alone keeps any relation between them. -/
theorem Uniform.of_apart {action : Action σ α}
    (apart : ∀ left right, Uniform (fun _ a b => a = left ∧ b = right) action)
    (same : Control → Control → Prop) : Uniform (fun _ => same) action := by
  -- what holds of two control panels that stay as they are holds of any two that are tied
  intro m n beside
  cases beside with
  | @intro control journal tied =>
    have paired := apart m.control control m _ (@Beside.intro _ _ _ control journal ⟨rfl, rfl⟩)
    have back : ∀ {one other : Machine σ},
        Beside (fun _ a b => a = m.control ∧ b = control) one other → Beside (fun _ => same) one other := by
      intro one other beside
      refine beside.mono fun _ a b ⟨left, right⟩ => ?_
      rwa [left, right]
    generalize action m = result, action { m with control, journal } = result' at paired
    cases paired with
    | ok beside => exact .ok (back beside)
    | error left =>
      exact .error (.of_beside _ (back (left.loosen.mono fun _ _ _ ⟨_, tied⟩ => tied)))

end Machine

theorem Env.Apart.uniform {σ : Type} {env : Env σ} (apart : env.Apart)
    (same : Control → Control → Prop) : env.Uniform fun _ => same where
  notify := fun hook notice => .of_apart (fun left right => (apart left right).notify hook notice) same
  answer := fun hook port => .of_apart (fun left right => (apart left right).answer hook port) same

namespace Machine

variable {σ : Type} {env : Env σ} {limit : Option Nat}

/-! ## One round of both runs -/

/-- An instruction that fails has latched a fault, or reading the keyboard has failed. -/
theorem guarded_error_cases {ip : Int} {work : Action σ Unit} {m now : Machine σ} {failure : Failure}
    (failed : guarded ip work m = .error failure now) :
    (∃ fault, failure = .fault fault) ∨ failure = .aborted ∨ failure = .waiting := by
  obtain ⟨cause, stopped, -, recovers⟩ := exists_of_guarded_error failed
  generalize now.cpu = cpu at recovers
  -- every failure but an abort and a wait is latched as a fault
  cases recovers with
  | latched has => exact .inl ⟨_, rfl⟩
  | aborted => exact .inr (.inl rfl)
  | waiting => exact .inr (.inr rfl)

/-- So has a step. -/
theorem step_error_cases {m now : Machine σ} {failure : Failure}
    (failed : step env m = .error failure now) :
    (∃ fault, failure = .fault fault) ∨ failure = .aborted ∨ failure = .waiting := by
  cases mode : m.cpu.mode with
  | halted =>
    rw [step_of_halted mode] at failed
    cases failed
  | faulted =>
    refine .inl ?_
    -- a faulted processor raises the fault that it has latched
    cases latched : m.cpu.lastFault with
    | some fault =>
      rw [step_of_faulted mode latched] at failed
      cases failed
      exact ⟨fault, rfl⟩
    | none =>
      rw [step_eq_refault mode, refault, get_bind, latched] at failed
      cases failed
      exact ⟨_, rfl⟩
  | ready =>
    rw [step_of_ready mode] at failed
    exact guarded_error_cases failed

section Turn

variable (apart : env.Apart) {a b : Machine σ} {limit' : Option Nat} {steps steps' : Nat}
include apart

/-- **A round of both runs** leads to the same if its conditions do. It does not fail. -/
theorem paired_turn {E : Failure → Machine σ → Machine σ → Prop}
    (beside : Beside (fun _ => Attuned) a b)
    (same : checks? a limit steps = checks? b limit' steps') :
    Paired (Beside fun _ => Attuned) E (turn env limit steps a) (turn env limit' steps' b) := by
  -- both machines see the same conditions and take the same step
  have panels := beside.tied
  have sameRegs : b.cpu.regs = a.cpu.regs := by
    cases beside
    rfl
  have paired := paired_step (apart.uniform Attuned) (fun _ _ _ tied => tied) beside
  rw [turn_eq panels.free, turn_eq panels.otherFree, same, sameRegs]
  cases checks? b limit' steps' with
  | some reason => exact .ok beside
  | none =>
    cases stepped : step env a with
    | ok done now =>
      rw [stepped] at paired
      obtain ⟨other, stepped', beside⟩ := paired.of_ok
      simp only [settleStep_ok stepped, settleStep_ok stepped']
      exact .ok beside
    | error failure now =>
      rw [stepped] at paired
      obtain ⟨other, failed', beside⟩ := paired.of_error
      simp only [settleStep_error stepped, settleStep_error failed']
      cases beside with
      | intro panels =>
        -- the control panels are as before, so that both rounds end alike
        obtain ⟨fault, rfl⟩ | rfl | rfl := step_error_cases stepped
        · exact .ok (.intro panels)
        · simp only [settled, panels.calm, panels.otherCalm]
          exact .ok (.intro panels)
        · exact .ok (.intro panels)

/-- A round outside step mode stays outside step mode. -/
theorem exists_turn (limit : Option Nat) (steps : Nat) (panel : Attuned a.control a.control) :
    ∃ turned now, turn env limit steps a = .ok turned now ∧ Attuned now.control now.control := by
  -- a machine is beside itself, and a round that could fail would leave it beside an impossible one
  have beside : Beside (fun _ => Attuned) a a := .intro panel
  have paired : Paired (Beside fun _ => Attuned) (fun _ _ _ => False) (turn env limit steps a)
      (turn env limit steps a) := paired_turn apart beside rfl
  cases ran : turn env limit steps a with
  | ok turned now =>
    rw [ran] at paired
    obtain ⟨other, same, beside⟩ := paired.of_ok
    obtain ⟨-, rfl⟩ := EStateM.Result.ok.inj same
    exact ⟨turned, now, rfl, beside.tied⟩
  | error failure now =>
    rw [ran] at paired
    obtain ⟨-, -, impossible⟩ := paired.of_error
    exact impossible.elim

end Turn

/-! ## The same rounds, counted differently -/

/-- One machine has done so many more instructions in its run than the other, which has been continued
in a run of its own. If its run is just beginning, it is not at a breakpoint. -/
structure Continues (done steps : Nat) (a b : Machine σ) : Prop where
  beside : Beside (fun _ => Attuned) a b
  elsewhere : 0 < done → steps = 0 → a.cpu.regs.ip ∉ a.control.breakpoints

/-- The conditions of both runs are the same. -/
theorem Continues.checks?_eq {done most steps : Nat} {a b : Machine σ}
    (continues : Continues done steps a b) :
    checks? a (some (done + most)) (done + steps) = checks? b (some most) steps := by
  obtain ⟨beside, elsewhere⟩ := continues
  cases beside with
  | intro panels =>
    -- the first step counts as one only where nothing has been done before
    have stops : (done + steps ≠ 0 ∧ a.cpu.regs.ip ∈ a.control.breakpoints) ↔
        (steps ≠ 0 ∧ a.cpu.regs.ip ∈ a.control.breakpoints) := by
      constructor
      · rintro ⟨positive, here⟩
        exact ⟨fun first => elsewhere (by omega) first here, here⟩
      · rintro ⟨positive, here⟩
        exact ⟨by omega, here⟩
    simp only [checks?, panels.calm, panels.otherCalm, panels.breakpoints, Option.any_some,
      Nat.add_le_add_iff_left, stops]

/-- Both runs end in the same way. -/
theorem coupled_conclude (reason : StopReason) :
    Coupled (Beside fun _ => Attuned) (conclude reason : Action σ Unit) (conclude reason) SameState
      fun _ => SameState := by
  intro a b beside
  rw [conclude_eq reason beside.tied.calm, conclude_eq reason beside.tied.otherCalm]
  cases beside
  exact .ok (.intro trivial)

section Rounds

variable (apart : env.Apart)
include apart

/-- What follows a round is the same for both runs. -/
theorem coupled_proceed {done most : Nat} (detached detached' : Bool) (fuel steps : Nat)
    (turned : Turn) :
    Coupled (Beside fun _ => Attuned)
      (proceed env (some (done + most)) detached fuel (done + steps) turned)
      (proceed env (some most) detached' fuel steps turned) SameState fun _ => SameState := by
  have finishes : ∀ fuel steps reason, Coupled (Beside fun _ => Attuned)
      (proceed env (some (done + most)) detached fuel (done + steps) (.finish reason))
      (proceed env (some most) detached' fuel steps (.finish reason)) SameState
      fun _ => SameState := by
    intro fuel steps reason
    rw [proceed_finish_eq, proceed_finish_eq]
    exact Coupled.bind (coupled_conclude reason) fun _ => Coupled.pure fun _ _ same => same
  have waits : ∀ fuel steps wait, Coupled (Beside fun _ => Attuned)
      (proceed env (some (done + most)) detached fuel (done + steps) (.pause wait))
      (proceed env (some most) detached' fuel steps (.pause wait)) SameState
      fun _ => SameState := by
    intro fuel steps wait
    rw [proceed_pause_eq, proceed_pause_eq]
    refine Coupled.bind (Q := SameState) (Coupled.modify fun a b beside => ?_) fun _ =>
      Coupled.pure fun _ _ same => same
    cases beside
    exact .intro trivial
  -- on the rounds that are left: whatever is not the last one is followed by another
  induction fuel generalizing steps turned with
  | zero =>
    cases turned with
    | finish reason => exact finishes _ _ _
    | pause wait => exact waits _ _ _
    | next => exact Coupled.pure fun _ _ beside => beside.mono fun _ _ _ _ => trivial
  | succ fuel ih =>
    cases turned with
    | finish reason => exact finishes _ _ _
    | pause wait => exact waits _ _ _
    | next =>
      refine Coupled.bind (fun a b beside => ?_) (ih (steps + 1))
      have continues : Continues done (steps + 1) a b := ⟨beside, fun _ first => nomatch first⟩
      exact paired_turn apart beside continues.checks?_eq

/-- **From a round on, both runs do the same**, and come back in the same way. -/
theorem coupled_rounds {done : Nat} (most : Nat) (detached detached' : Bool) (fuel steps : Nat) :
    Coupled (Continues done steps)
      (turn env (some (done + most)) (done + steps) >>=
        proceed env (some (done + most)) detached fuel (done + steps))
      (turn env (some most) steps >>= proceed env (some most) detached' fuel steps)
      SameState fun _ => SameState :=
  Coupled.bind (fun _ _ continues => paired_turn apart continues.beside continues.checks?_eq)
    (coupled_proceed apart detached detached' fuel steps)

/-! ## Runs with a limit come back -/

/-- The rounds up to a limit are enough to come back. -/
theorem rounds_return {detached : Bool} {most fuel steps : Nat} {m : Machine σ}
    (panel : Attuned m.control m.control) (enough : most ≤ steps + fuel) :
    ∃ ending after, (turn env (some most) steps >>= proceed env (some most) detached fuel steps) m =
      .ok ending after ∧ ending ≠ .unfinished := by
  induction fuel generalizing steps m with
  | zero =>
    obtain ⟨turned, now, first, panel'⟩ := exists_turn apart (some most) steps panel
    rw [bind_of_ok first]
    cases turned with
    | finish reason =>
      rw [proceed_finish_eq, bind_of_ok (conclude_eq reason panel'.calm)]
      exact ⟨_, _, rfl, nofun⟩
    | pause wait => exact ⟨_, _, rfl, nofun⟩
    | next =>
      -- the limit is reached, so there is no further instruction
      have clear := ((turn_next_iff panel.free).1 first).1
      have below := ((checks?_eq_none_iff panel.calm).1 clear).below most rfl
      omega
  | succ fuel ih =>
    obtain ⟨turned, now, first, panel'⟩ := exists_turn apart (some most) steps panel
    rw [bind_of_ok first]
    cases turned with
    | finish reason =>
      rw [proceed_finish_eq, bind_of_ok (conclude_eq reason panel'.calm)]
      exact ⟨_, _, rfl, nofun⟩
    | pause wait => exact ⟨_, _, rfl, nofun⟩
    | next => exact ih panel' (by omega)

/-- **A run with a limit comes back**: it ends, or it waits for a key. -/
theorem run_returns (patience most : Nat) {m : Machine σ} (idle : m.control.running = false)
    (free : m.control.stepMode = false) :
    ∃ ending after, run env patience (some most) m = .ok ending after ∧ ending ≠ .unfinished := by
  rw [run_of_idle idle]
  have enough : most ≤ 0 + rounds (some most) patience := by simp [rounds]
  exact rounds_return apart ⟨rfl, free, free, rfl, rfl⟩ enough

/-! ## The first part -/

/-- **The rounds of a run that has used up its limit** are the first ones of a run with a higher limit. -/
theorem Loop.of_timeout {most count steps : Nat} {reason : StopReason} {a ended : Machine σ}
    (loop : Loop env (some most) count steps a reason ended) (timeout : reason = .timeout)
    (panel : Attuned a.control a.control) (within : steps ≤ most) (more : Nat) (detached : Bool)
    (fuel : Nat) :
    steps + count = most ∧ Attuned ended.control ended.control ∧
      (turn env (some (most + more)) steps >>=
        proceed env (some (most + more)) detached (fuel + count) steps) a =
      (turn env (some (most + more)) most >>=
        proceed env (some (most + more)) detached fuel most) ended := by
  induction loop with
  | finish last =>
    cases (turn_finish_iff panel.free).1 last with
    | check met =>
      subst timeout
      cases (checks?_eq_some_iff panel.calm).1 met with
      | timeout ready isLimit reached =>
        obtain rfl := Option.some.inj isLimit
        obtain rfl := Nat.le_antisymm within reached
        exact ⟨rfl, panel, rfl⟩
    | fault clear failed => cases timeout
    | aborted clear failed => split at timeout <;> cases timeout
  | @next count steps a now reason ended first rest ih =>
    obtain ⟨clear, stepped⟩ := (turn_next_iff panel.free).1 first
    have goesOn := (checks?_eq_none_iff panel.calm).1 clear
    have below := goesOn.below most rfl
    -- what goes on below a limit also goes on below a higher one
    have farther : GoesOn (some (most + more)) a.control.breakpoints steps a.cpu := by
      refine ⟨goesOn.ready, fun limit isLimit => ?_, goesOn.elsewhere⟩
      obtain rfl := Option.some.inj isLimit
      omega
    have again : turn env (some (most + more)) steps a = .ok .next now :=
      (turn_next_iff panel.free).2 ⟨(checks?_eq_none_iff panel.calm).2 farther, stepped⟩
    obtain ⟨turned, now', ran, panel'⟩ := exists_turn apart (some most) steps panel
    rw [first] at ran
    obtain ⟨-, rfl⟩ := EStateM.Result.ok.inj ran
    obtain ⟨total, kept, same⟩ := ih timeout panel' below
    refine ⟨by omega, kept, ?_⟩
    rw [bind_of_ok again, ← same]
    rfl

end Rounds

/-! ## Both parts -/

/-- **A run with a limit can be split in two.** When a first run of an idle machine outside step mode has
used up its limit, away from a breakpoint, then a second run from there comes back like one run with the
sum of the two limits, and with the same machine but for control panel and journal. -/
theorem run_split (apart : env.Apart) {patience : Nat} {start middle : Machine σ} {first second : Nat}
    (idle : start.control.running = false) (free : start.control.stepMode = false)
    (ran : run env patience (some first) start = .ok (.done .timeout) middle)
    (elsewhere : middle.cpu.regs.ip ∉ middle.control.breakpoints) :
    ∃ ending after whole, run env patience (some second) middle = .ok ending after ∧
      run env patience (some (first + second)) start = .ok ending whole ∧ ending ≠ .unfinished ∧
      SameState whole after := by
  obtain ⟨count, -, ended, loop, concludes⟩ := (run_done_iff idle).1 ran
  obtain ⟨total, panel, onward⟩ := loop.of_timeout apart rfl ⟨rfl, free, free, rfl, rfl⟩ (Nat.zero_le _)
    second false (second + 1)
  rw [conclude_eq _ panel.calm] at concludes
  obtain ⟨-, rfl⟩ := EStateM.Result.ok.inj concludes
  -- the second run begins beside the machine in which the first one has ended
  have continues : Continues first 0 ended (begun (concluded .timeout ended)) :=
    ⟨.intro ⟨rfl, panel.free, panel.free, panel.calm, rfl⟩, fun _ _ => elsewhere⟩
  have paired := coupled_rounds apart second false false (second + 1) 0 ended _ continues
  have all : rounds (some (first + second)) patience = second + 1 + count := by
    simp only [rounds, Option.elim_some]
    omega
  have single : run env patience (some (first + second)) start = _ := run_of_idle idle
  rw [all, onward] at single
  obtain ⟨ending, whole, comes, ends⟩ :=
    run_returns apart patience (first + second) idle free
  rw [Nat.add_zero, ← single, comes] at paired
  obtain ⟨after, continued, same⟩ := paired.of_ok
  exact ⟨ending, after, whole, (run_of_idle rfl).trans continued, comes, ends, same⟩

/-- A run of six instructions is split behind the first one. Its second part comes back to the breakpoint
where the run has started. -/
theorem run_split_before_breakpoint :
    ∃ middle, counting.Apart ∧ looping.control.running = false ∧ looping.control.stepMode = false ∧
      run counting 0 (some 1) looping = .ok (.done .timeout) middle ∧
      middle.cpu.regs.ip ∉ middle.control.breakpoints ∧
      ∃ ending after whole, run counting 0 (some 5) middle = .ok ending after ∧
        run counting 0 (some (1 + 5)) looping = .ok ending whole ∧ ending ≠ .unfinished ∧
        SameState whole after := by
  obtain ⟨middle, ran, elsewhere⟩ := exists_of_comesTo counting 0 (some 1) looping (.done .timeout)
    (fun m => decide (m.cpu.regs.ip ∉ m.control.breakpoints)) (by decide +kernel)
  have away := of_decide_eq_true elsewhere
  have apart : counting.Apart := fun _ _ => uniform_counting _
  exact ⟨middle, apart, rfl, rfl, ran, away, run_split apart rfl rfl ran away⟩

end Machine

end EightBit
