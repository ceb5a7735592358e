import EightBit.Machine.Run
import EightBit.Proofs.Machine.Coupling
import EightBit.Proofs.Machine.Requests

/-!
# Runs as Repeated Steps

A run comes to what one gets by stepping the processor from outside: some completed steps, and perhaps
one more that fails. What it reports is told by where it has stopped.

The rounds of a run are taken apart first, for the machine that is running. They are then compared with
the steps of a machine beside it, whose control panel may be another one.

## Main Definitions

- `Loop`: the rounds of a run that ends.
- `Ends`: how a round finishes.
- `GoesOn`, `Met`: the conditions under which a run takes another step, and those that end it.
- `Walks`, `Course`, `Tries`: completed steps, perhaps with one more that fails, and each of the tries.
- `Explains`: a course of steps that accounts for the rounds of a run.
- `Env.Aside`: observers and attached devices that do not use the control panel.
- `Reported`: what the reason of a run says.

## Main Statements

- `run_done_iff`: a run that is done has gone through the rounds of a loop.
- `Loop.explains`: the rounds of a loop are steps of any machine beside it.
- `run_course`: a run is repeated stepping, and its reason says where it has stopped.
-/

namespace EightBit

namespace Machine

variable {σ : Type} {env : Env σ} {limit : Option Nat}

/-! ## Rounds -/

/-- The machine in which a run begins its first round. -/
def begun (m : Machine σ) : Machine σ :=
  { m with control := { m.control with running := true, stopRequested := false } }

/-- The rounds of a run that ends: so many completed instructions, and a round that finishes. -/
inductive Loop (env : Env σ) (limit : Option Nat) :
    Nat → Nat → Machine σ → StopReason → Machine σ → Prop
  | finish {steps m reason ended} (last : turn env limit steps m = .ok (.finish reason) ended) :
    Loop env limit 0 steps m reason ended
  | next {count steps m now reason ended} (first : turn env limit steps m = .ok .next now)
    (rest : Loop env limit count (steps + 1) now reason ended) :
    Loop env limit (count + 1) steps m reason ended

theorem proceed_finish_eq (detached : Bool) (fuel steps : Nat) (reason : StopReason) :
    proceed env limit detached fuel steps (.finish reason) =
      (do conclude reason; return .done reason) := by
  cases fuel <;> rfl

/-- A round that finishes ends the run. -/
theorem proceed_finish {detached : Bool} {fuel steps : Nat} {reason reported : StopReason}
    {m after : Machine σ} :
    proceed env limit detached fuel steps (.finish reason) m = .ok (.done reported) after ↔
      reason = reported ∧ conclude reason m = .ok () after := by
  rw [proceed_finish_eq]
  constructor
  · intro ran
    obtain ⟨_, ended, concluded, returned⟩ := exists_of_bind_ok ran
    cases returned
    exact ⟨rfl, concluded⟩
  · rintro ⟨rfl, concluded⟩
    exact bind_of_ok concluded

/-- A round that has to wait suspends the run. -/
theorem proceed_pause_eq (detached : Bool) (fuel steps : Nat) (wait : Wait) :
    proceed env limit detached fuel steps (.pause wait) = (do
      modifyControl fun control =>
        { control with suspension := some { limit, steps, wait, detached } }
      return .waiting wait) := by
  cases fuel <;> rfl

/-- **Rounds within a bound**: going on is done just when a loop ends within it. -/
theorem proceed_done_iff {detached : Bool} {fuel steps : Nat} {m after : Machine σ}
    {reason : StopReason} :
    (turn env limit steps >>= proceed env limit detached fuel steps) m = .ok (.done reason) after ↔
      ∃ count ≤ fuel, ∃ ended, Loop env limit count steps m reason ended ∧
        conclude reason ended = .ok () after := by
  -- on the rounds that are left: one that finishes ends the loop, one that is completed begins it
  induction fuel generalizing steps m with
  | zero =>
    constructor
    · intro ran
      obtain ⟨turned, now, first, went⟩ := exists_of_bind_ok ran
      cases turned with
      | finish reported =>
        obtain ⟨rfl, concluded⟩ := proceed_finish.1 went
        exact ⟨0, Nat.le_refl _, now, .finish first, concluded⟩
      | pause wait => cases went
      | next => cases went
    · rintro ⟨count, within, ended, loop, concluded⟩
      cases loop with
      | finish last =>
        rw [bind_of_ok last]
        exact proceed_finish.2 ⟨rfl, concluded⟩
      | next first rest => cases within
  | succ fuel ih =>
    constructor
    · intro ran
      obtain ⟨turned, now, first, went⟩ := exists_of_bind_ok ran
      cases turned with
      | finish reported =>
        obtain ⟨rfl, concluded⟩ := proceed_finish.1 went
        exact ⟨0, Nat.zero_le _, now, .finish first, concluded⟩
      | pause wait => cases went
      | next =>
        obtain ⟨count, within, ended, loop, concluded⟩ := ih.1 went
        exact ⟨count + 1, Nat.succ_le_succ within, ended, .next first loop, concluded⟩
    · rintro ⟨count, within, ended, loop, concluded⟩
      cases loop with
      | finish last =>
        rw [bind_of_ok last]
        exact proceed_finish.2 ⟨rfl, concluded⟩
      | next first rest =>
        rw [bind_of_ok first]
        exact ih.2 ⟨_, Nat.le_of_succ_le_succ within, ended, rest, concluded⟩

/-- An idle machine begins with its first round. -/
theorem run_of_idle {patience : Nat} {m : Machine σ} (idle : m.control.running = false) :
    run env patience limit m =
      (turn env limit 0 >>= proceed env limit false (rounds limit patience) 0) (begun m) := by
  show (if m.control.running then _ else _ : Action σ Ending) m = _
  rw [if_neg (by simp [idle])]
  rfl

/-- **A run that is done** has gone through the rounds of a loop. -/
theorem run_done_iff {patience : Nat} {m after : Machine σ} {reason : StopReason}
    (idle : m.control.running = false) :
    run env patience limit m = .ok (.done reason) after ↔
      ∃ count ≤ rounds limit patience, ∃ ended, Loop env limit count 0 (begun m) reason ended ∧
        conclude reason ended = .ok () after := by
  rw [run_of_idle idle]
  exact proceed_done_iff

/-! ## One round -/

/-- What a fault leaves when it is noted in the journal. -/
def noted (fault : Fault) (m : Machine σ) : Machine σ :=
  let line := m.currentLine?.elim "None" toString
  { m with journal := ⟨.warning, .simulator, "Fault on line " ++ line ++ ": " ++ fault.message⟩ ::
    m.journal }

/-- **How a round finishes**: by a condition, by a fault, or by an abandoned input. -/
inductive Ends (env : Env σ) (limit : Option Nat) (steps : Nat) (m : Machine σ) :
    StopReason → Machine σ → Prop
  | check {reason} (met : checks? m limit steps = some reason) : Ends env limit steps m reason m
  | fault {fault now} (clear : checks? m limit steps = none)
    (failed : step env m = .error (.fault fault) now) :
    Ends env limit steps m .fault (noted fault now)
  | aborted {now} (clear : checks? m limit steps = none)
    (failed : step env m = .error .aborted now) :
    Ends env limit steps m (if now.control.stopRequested then .stopped else .aborted) now

/-- What a failed step leads to. -/
def settled (ip : Int) (failure : Failure) (now : Machine σ) :
    EStateM.Result Failure (Machine σ) Turn :=
  match failure with
  | .fault fault => .ok (.finish .fault) (noted fault now)
  | .aborted => .ok (.finish (if now.control.stopRequested then .stopped else .aborted)) now
  | .waiting => .ok (.pause (.key ip)) now
  | other => .error other now

section Turn

variable {steps : Nat} {m now : Machine σ} {ip : Int} {work : Action σ Unit}

theorem settleStep_ok (worked : work m = .ok () now) :
    settleStep ip work m = .ok .next now :=
  tryCatch_of_ok (bind_of_ok worked)

theorem settleStep_error {failure : Failure} (failed : work m = .error failure now) :
    settleStep ip work m = settled ip failure now := by
  refine (tryCatch_of_error (bind_of_error failed)).trans ?_
  cases failure <;> rfl

/-- Outside step mode, a round checks the conditions and steps. -/
theorem turn_eq (free : m.control.stepMode = false) :
    turn env limit steps m = match checks? m limit steps with
      | some reason => .ok (.finish reason) m
      | none => settleStep m.cpu.regs.ip (step env) m := by
  show (match checks? m limit steps with
    | some reason => Pure.pure (.finish reason)
    | none => takeTurn env : Action σ Turn) m = _
  cases checks? m limit steps with
  | some reason => rfl
  | none =>
    have granted : grantStep m = .ok (some true) m := by
      show (if !m.control.stepMode then Pure.pure (some true) else _ : Action σ (Option Bool)) m = _
      rw [free]
      rfl
    exact bind_of_ok granted

theorem turn_next_iff (free : m.control.stepMode = false) :
    turn env limit steps m = .ok .next now ↔
      checks? m limit steps = none ∧ step env m = .ok () now := by
  rw [turn_eq free]
  cases checked : checks? m limit steps with
  | some reason => simp
  | none =>
    cases stepped : step env m with
    | ok done after =>
      simp [settleStep_ok stepped]
    | error failure after =>
      simp only [settleStep_error stepped]
      cases failure <;> simp [settled]

/-- **A round finishes** in one of three ways. -/
theorem turn_finish_iff (free : m.control.stepMode = false) {reason : StopReason}
    {ended : Machine σ} :
    turn env limit steps m = .ok (.finish reason) ended ↔ Ends env limit steps m reason ended := by
  rw [turn_eq free]
  constructor
  -- a round ends by a condition that is met, by a fault, or by an abort
  · intro ran
    cases checked : checks? m limit steps with
    | some met =>
      rw [checked] at ran
      cases ran
      exact .check checked
    | none =>
      rw [checked] at ran
      cases stepped : step env m with
      | ok done after =>
        rw [settleStep_ok stepped] at ran
        cases ran
      | error failure after =>
        rw [settleStep_error stepped] at ran
        cases failure with
        | fault fault =>
          cases ran
          exact .fault checked stepped
        | aborted =>
          cases ran
          exact .aborted checked stepped
        | _ => cases ran
  -- in the other direction each of the three is what the round comes to
  · intro ends
    cases ends with
    | check met => rw [met]
    | fault clear failed =>
      rw [clear]
      exact settleStep_error failed
    | aborted clear failed =>
      rw [clear]
      exact settleStep_error failed

end Turn

/-! ## Conditions -/

/-- A run takes another step: the processor is ready, the limit is not reached, and the step is the
first one or not at a breakpoint. -/
structure GoesOn (limit : Option Nat) (breakpoints : List Int) (steps : Nat) (cpu : Processor) :
    Prop where
  ready : cpu.mode = .ready
  below : ∀ most ∈ limit, steps < most
  elsewhere : 0 < steps → cpu.regs.ip ∉ breakpoints

/-- A condition ends the run, and this is its reason. -/
inductive Met (limit : Option Nat) (breakpoints : List Int) (steps : Nat) (cpu : Processor) :
    StopReason → Prop
  | halt (halted : cpu.mode = .halted) : Met limit breakpoints steps cpu .halt
  | fault (faulted : cpu.mode = .faulted) : Met limit breakpoints steps cpu .fault
  | timeout {most} (ready : cpu.mode = .ready) (isLimit : limit = some most) (reached : most ≤ steps) :
    Met limit breakpoints steps cpu .timeout
  | breakpoint (ready : cpu.mode = .ready) (below : ∀ most ∈ limit, steps < most)
    (positive : 0 < steps) (here : cpu.regs.ip ∈ breakpoints) :
    Met limit breakpoints steps cpu .breakpoint

section Checks

variable {steps : Nat} {m : Machine σ} (calm : m.control.stopRequested = false)
include calm

/-- **The conditions in order**, when no stop was requested. -/
theorem checks?_eq_some_iff {reason : StopReason} :
    checks? m limit steps = some reason ↔ Met limit m.control.breakpoints steps m.cpu reason := by
  have reached : limit.any (· ≤ steps) = true ↔ ∃ most, limit = some most ∧ most ≤ steps := by
    cases limit <;> simp
  rw [checks?, if_neg (by simp [calm])]
  constructor
  -- the conditions are looked at in this order, and the first that is met is the reason
  · intro met
    cases mode : m.cpu.mode with
    | halted =>
      simp only [mode, if_true, Option.some.injEq] at met
      subst met
      exact .halt mode
    | faulted =>
      simp only [mode, reduceCtorEq, if_false, if_true, Option.some.injEq] at met
      subst met
      exact .fault mode
    | ready =>
      simp only [mode, reduceCtorEq, if_false] at met
      split at met
      · next beyond =>
        obtain ⟨most, isLimit, reached⟩ := reached.1 beyond
        cases met
        exact .timeout mode isLimit reached
      · next under =>
        split at met
        · next here =>
          cases met
          refine .breakpoint mode (fun most isLimit => ?_) (Nat.pos_of_ne_zero here.1) here.2
          by_contra beyond
          exact under (reached.2 ⟨most, isLimit, Nat.le_of_not_lt beyond⟩)
        · cases met
  -- each reason rules out those that stand before it
  · intro met
    cases met with
    | halt halted => simp [halted]
    | fault faulted => simp [faulted]
    | timeout ready isLimit beyond => simp [ready, reached.2 ⟨_, isLimit, beyond⟩]
    | breakpoint ready below positive here =>
      have under : limit.any (· ≤ steps) = false := by
        rw [← Bool.not_eq_true, reached]
        rintro ⟨most, isLimit, beyond⟩
        exact absurd (below most isLimit) (Nat.not_lt.2 beyond)
      simp [ready, under, Nat.pos_iff_ne_zero.1 positive, here]

theorem checks?_eq_none_iff :
    checks? m limit steps = none ↔ GoesOn limit m.control.breakpoints steps m.cpu := by
  constructor
  · intro clear
    -- none of the conditions is met
    have unmet : ∀ reason, ¬Met limit m.control.breakpoints steps m.cpu reason := by
      intro reason met
      rw [(checks?_eq_some_iff calm).2 met] at clear
      cases clear
    have ready : m.cpu.mode = .ready := by
      cases mode : m.cpu.mode with
      | ready => rfl
      | halted => exact absurd (.halt mode) (unmet .halt)
      | faulted => exact absurd (.fault mode) (unmet .fault)
    have below : ∀ most ∈ limit, steps < most := by
      intro most isLimit
      by_contra beyond
      exact unmet .timeout (.timeout ready isLimit (Nat.le_of_not_lt beyond))
    exact ⟨ready, below, fun positive here => unmet .breakpoint (.breakpoint ready below positive here)⟩
  · intro goesOn
    cases checked : checks? m limit steps with
    | none => rfl
    | some reason =>
      exfalso
      cases (checks?_eq_some_iff calm).1 checked with
      | halt halted => simp [goesOn.ready] at halted
      | fault faulted => simp [goesOn.ready] at faulted
      | timeout ready isLimit beyond => exact absurd (goesOn.below _ isLimit) (Nat.not_lt.2 beyond)
      | breakpoint ready below positive here => exact goesOn.elsewhere positive here

end Checks

/-! ## Steps one after the other -/

/-- The machine after so many completed steps. -/
def Walks (env : Env σ) : Nat → Machine σ → Machine σ → Prop
  | 0, m, last => last = m
  | count + 1, m, last => ∃ next, step env m = .ok () next ∧ Walks env count next last

/-- Completed steps to a last machine, and perhaps one more step that fails there. -/
structure Course (env : Env σ) (m : Machine σ) (count : Nat) (last : Machine σ)
    (failure? : Option Failure) (final : Machine σ) : Prop where
  walks : Walks env count m last
  ends : match failure? with
    | none => final = last
    | some failure => step env last = .error failure final

/-- The step was tried on that machine, after so many completed ones. -/
def Tries (env : Env σ) (m : Machine σ) (count : Nat) (failure? : Option Failure) (done : Nat)
    (now : Machine σ) : Prop :=
  Walks env done m now ∧ (done < count ∨ done = count ∧ failure?.isSome)

/-- Why a run ends: a condition is met, a step has faulted, or an input was abandoned. -/
inductive Verdict (limit : Option Nat) (breakpoints : List Int) (steps : Nat) (cpu : Processor) :
    Option Failure → StopReason → Prop
  | met {reason} (met : Met limit breakpoints steps cpu reason) :
    Verdict limit breakpoints steps cpu none reason
  | fault (fault : Fault) : Verdict limit breakpoints steps cpu (some (.fault fault)) .fault
  | aborted : Verdict limit breakpoints steps cpu (some .aborted) .aborted

/-- The first try is on the first machine, and the others come behind its step. -/
theorem tries_succ_cases {m next now : Machine σ} {count done : Nat} {failure? : Option Failure}
    (stepped : step env m = .ok () next) (tries : Tries env m (count + 1) failure? done now) :
    done = 0 ∧ now = m ∨ ∃ before, done = before + 1 ∧ Tries env next count failure? before now := by
  obtain ⟨walks, within⟩ := tries
  cases done with
  | zero => exact .inl ⟨rfl, walks⟩
  | succ before =>
    obtain ⟨other, stepped', walks⟩ := walks
    rw [stepped] at stepped'
    cases stepped'
    refine .inr ⟨before, rfl, walks, ?_⟩
    rcases within with less | ⟨same, failed⟩
    · exact .inl (Nat.lt_of_succ_lt_succ less)
    · exact .inr ⟨Nat.succ.inj same, failed⟩

/-- Without completed steps, only the first machine is tried on. -/
theorem tries_zero_cases {m now : Machine σ} {done : Nat} {failure? : Option Failure}
    (tries : Tries env m 0 failure? done now) : done = 0 ∧ now = m ∧ failure?.isSome := by
  obtain ⟨walks, within⟩ := tries
  rcases within with less | ⟨rfl, failed⟩
  · cases less
  · exact ⟨rfl, walks, failed⟩

/-! ## Loops as steps -/

/-- **The course explains the rounds** of a run that has done so many instructions: it keeps the limit,
the run goes on at each of its steps, and the reason is the verdict on the machine it leads to. -/
structure Explains (env : Env σ) (limit : Option Nat) (breakpoints : List Int) (steps : Nat)
    (reason : StopReason) (m : Machine σ) (count : Nat) (last : Machine σ) (failure? : Option Failure)
    (final : Machine σ) : Prop where
  course : Course env m count last failure? final
  within : ∀ most ∈ limit, steps ≤ most → steps + count ≤ most
  tried : ∀ done now, Tries env m count failure? done now →
    GoesOn limit breakpoints (steps + done) now.cpu
  verdict : Verdict limit breakpoints (steps + count) final.cpu failure? reason

section Explains

variable {breakpoints : List Int} {steps count : Nat} {reason : StopReason}
  {m now last final : Machine σ} {failure? : Option Failure}

theorem Explains.of_met (met : Met limit breakpoints steps m.cpu reason) :
    Explains env limit breakpoints steps reason m 0 m none m where
  course := ⟨rfl, rfl⟩
  within := fun _ _ within => within
  tried := fun _ _ tries => nomatch (tries_zero_cases tries).2.2
  verdict := .met met

theorem Explains.of_error {failure : Failure} (goesOn : GoesOn limit breakpoints steps m.cpu)
    (failed : step env m = .error failure final)
    (verdict : Verdict limit breakpoints steps final.cpu (some failure) reason) :
    Explains env limit breakpoints steps reason m 0 m (some failure) final where
  course := ⟨rfl, failed⟩
  within := fun _ _ within => within
  tried := by
    intro done other tries
    obtain ⟨rfl, rfl, -⟩ := tries_zero_cases tries
    exact goesOn
  verdict := verdict

/-- A completed step in front of a course. -/
theorem Explains.next (goesOn : GoesOn limit breakpoints steps m.cpu)
    (stepped : step env m = .ok () now)
    (explains : Explains env limit breakpoints (steps + 1) reason now count last failure? final) :
    Explains env limit breakpoints steps reason m (count + 1) last failure? final where
  course := ⟨⟨now, stepped, explains.course.walks⟩, explains.course.ends⟩
  within := by
    intro most isLimit _
    have kept := explains.within most isLimit (goesOn.below most isLimit)
    omega
  -- the first step goes on by hypothesis, and each later one is a step of the rest
  tried := by
    intro done other tries
    obtain ⟨rfl, rfl⟩ | ⟨before, rfl, behind⟩ := tries_succ_cases stepped tries
    · exact goesOn
    · have shift : steps + (before + 1) = steps + 1 + before := by omega
      rw [shift]
      exact explains.tried before other behind
  -- the steps of the rest are counted from one further on
  verdict := by
    have shift : steps + (count + 1) = steps + 1 + count := by omega
    rw [shift]
    exact explains.verdict

end Explains

/-- On machines whose control panels are tied, steps end in the same way and keep the tie, and neither
step mode nor a stop request interferes with the first of them. -/
structure Follows (env : Env σ) (breakpoints : List Int) (tie : Control → Control → Prop) : Prop where
  quiet : ∀ a b, tie a b → a.stepMode = false ∧ a.stopRequested = false ∧ a.breakpoints = breakpoints
  steps : ∀ m i, m.cpu.mode = .ready → Beside (fun _ => tie) m i →
    Paired (Beside fun _ => tie) (fun _ => Beside fun _ => tie) (step env m) (step env i)

/-- **The rounds of a loop are steps** of any machine beside it. -/
theorem Loop.explains {breakpoints : List Int} {tie : Control → Control → Prop} {count steps : Nat}
    {m i ended : Machine σ} {reason : StopReason} (loop : Loop env limit count steps m reason ended)
    (follows : Follows env breakpoints tie) (beside : Beside (fun _ => tie) m i) :
    ∃ last failure? final, Explains env limit breakpoints steps reason i count last failure? final ∧
      Beside (fun _ => tie) ended final := by
  induction loop generalizing i with
  | @finish steps m reason ended last =>
    -- if the last round steps at all, the step fails on both machines
    have paired := follows.steps m i
    cases beside with
    | @intro control journal tied =>
      obtain ⟨free, calm, rfl⟩ := follows.quiet _ _ tied
      cases (turn_finish_iff free).1 last with
      | check met => exact ⟨_, _, _, .of_met ((checks?_eq_some_iff calm).1 met), .intro tied⟩
      | @fault fault now clear failed =>
        have goesOn := (checks?_eq_none_iff calm).1 clear
        specialize paired goesOn.ready (.intro tied)
        rw [failed] at paired
        obtain ⟨final, failed', beside⟩ := paired.of_error
        refine ⟨_, _, final, .of_error goesOn failed' (.fault fault), ?_⟩
        cases beside with
        | intro tied => exact .intro tied
      | aborted clear failed =>
        have goesOn := (checks?_eq_none_iff calm).1 clear
        specialize paired goesOn.ready (.intro tied)
        rw [failed] at paired
        obtain ⟨final, failed', beside⟩ := paired.of_error
        have calm : ended.control.stopRequested = false := by
          cases beside with
          | intro tied => exact (follows.quiet _ _ tied).2.1
        rw [if_neg (by simp [calm])]
        exact ⟨_, _, final, .of_error goesOn failed' .aborted, beside⟩
  | @next count steps m now reason ended first rest ih =>
    -- a completed step of both machines, behind which they are beside each other again
    have paired := follows.steps m i
    cases beside with
    | @intro control journal tied =>
      obtain ⟨free, calm, rfl⟩ := follows.quiet _ _ tied
      obtain ⟨clear, stepped⟩ := (turn_next_iff free).1 first
      have goesOn := (checks?_eq_none_iff calm).1 clear
      specialize paired goesOn.ready (.intro tied)
      rw [stepped] at paired
      obtain ⟨other, stepped', beside⟩ := paired.of_ok
      obtain ⟨last, failure?, final, explains, ends⟩ := ih beside
      exact ⟨last, failure?, final, explains.next goesOn stepped', ends⟩

/-- A step that ends in a fault has latched it. -/
theorem mode_of_fault {m now : Machine σ} {fault : Fault} (ready : m.cpu.mode = .ready)
    (failed : step env m = .error (.fault fault) now) : now.cpu.mode = .faulted := by
  obtain ⟨cause, stopped, -, latched⟩ := exists_latched ready failed
  rw [latched]
  rfl

end Machine

/-! ## Observers that do not use the control panel -/

/-- The processors are ready, and the control panels are these two. -/
def Panels (left right : Control) : Machine.Tie :=
  fun mode a b => mode = .ready ∧ a = left ∧ b = right

/-- Observers and attached devices do not use the control panel: whatever it shows, they do the same,
and they leave it as it is. They leave a ready processor ready, also when they abandon an input. -/
def Env.Aside {σ : Type} (env : Env σ) : Prop :=
  ∀ left right, env.Uniform (Panels left right)

namespace Machine

variable {σ : Type} {env : Env σ} {limit : Option Nat}

section Aside

variable (aside : env.Aside)
include aside

/-- Steps do not depend on the control panel. -/
theorem follows_of_aside (left right : Control) (free : left.stepMode = false)
    (calm : left.stopRequested = false) :
    Follows env left.breakpoints fun a b => a = left ∧ b = right where
  quiet := by
    rintro a b ⟨rfl, rfl⟩
    exact ⟨free, calm, rfl⟩
  steps := by
    intro m i ready beside
    apply paired_step (aside left right) fun _ _ _ tied => tied.2
    cases beside with
    | intro tied => exact .intro ⟨ready, tied⟩

/-- A step in which an input is abandoned leaves the processor ready. -/
theorem ready_of_aborted {m now : Machine σ} (ready : m.cpu.mode = .ready)
    (failed : step env m = .error .aborted now) : now.cpu.mode = .ready := by
  have beside : Beside (Panels m.control m.control) m m := .intro ⟨ready, rfl, rfl⟩
  have paired := coupled_step (aside m.control m.control) m m beside
  rw [failed] at paired
  obtain ⟨other, -, left⟩ := paired.of_error
  cases (left : Beside _ now other) with
  | intro tied => exact tied.1

end Aside

/-! ## The end of a run -/

/-- What the end of a run leaves, apart from the keyboard. -/
def concluded (reason : StopReason) (m : Machine σ) : Machine σ :=
  { m with
    control := { m.control with lastReason := some reason, running := false, suspension := none }
    journal := ⟨.info, .simulator,
      "Stopped: " ++ reason.name ++ " after " ++ toString m.cpu.instructions ++
        " instructions (IP=" ++ String.ofList (Numeral.hexAddress m.cpu.regs.ip) ++ ")"⟩ :: m.journal }

/-- The machine with nothing in its keyboard. -/
def emptied (m : Machine σ) : Machine σ :=
  { m with devices := { m.devices with keyboard := ⟨none⟩ } }

/-- **The end of a run** is reported. If a stop was requested, the keyboard is emptied besides. -/
theorem conclude_eq_ite (reason : StopReason) (m : Machine σ) :
    conclude reason m =
      .ok () (concluded reason (if m.control.stopRequested then emptied m else m)) := by
  have reported : modifyControl (fun control => { control with lastReason := some reason }) m =
      .ok () { m with control := { m.control with lastReason := some reason } } := rfl
  rw [conclude, bind_of_ok reported]
  show (if m.control.stopRequested then _ else _ : Action σ Unit) _ = _
  split <;> rfl

theorem conclude_eq {m : Machine σ} (reason : StopReason) (calm : m.control.stopRequested = false) :
    conclude reason m = .ok () (concluded reason m) := by
  rw [conclude_eq_ite, if_neg (by simp [calm])]

theorem conclude_of_requested {m : Machine σ} (reason : StopReason)
    (requested : m.control.stopRequested = true) :
    conclude reason m = .ok () (concluded reason (emptied m)) := by
  rw [conclude_eq_ite, if_pos requested]

/-- Either way it has nothing to do with the processor, and a stop request stands. -/
theorem same_of_conclude {reason : StopReason} {m after : Machine σ}
    (ran : conclude reason m = .ok () after) :
    after.cpu = m.cpu ∧ after.control =
      { m.control with lastReason := some reason, running := false, suspension := none } := by
  rw [conclude_eq_ite] at ran
  obtain ⟨-, rfl⟩ := EStateM.Result.ok.inj ran
  split <;> exact ⟨rfl, rfl⟩

/-! ## What a run reports -/

/-- The machines differ in control panel and journal alone. -/
def SameState : Machine σ → Machine σ → Prop :=
  Beside fun _ _ _ => True

/-- **The reason says where the run has stopped**, after so many completed steps. -/
structure Reported (limit : Option Nat) (breakpoints : List Int) (count : Nat)
    (failure? : Option Failure) (cpu : Processor) (reason : StopReason) : Prop where
  within : ∀ most ∈ limit, count ≤ most
  halt : reason = .halt ↔ cpu.mode = .halted
  fault : reason = .fault ↔ cpu.mode = .faulted
  aborted : reason = .aborted ↔ failure? = some .aborted
  otherwise : reason ≠ .halt → reason ≠ .fault → reason ≠ .aborted →
    cpu.mode = .ready ∧ (reason = .timeout ∨ reason = .breakpoint) ∧
      (reason = .timeout ↔ limit = some count) ∧
      (reason = .breakpoint ↔
        0 < count ∧ (∀ most ∈ limit, count < most) ∧ cpu.regs.ip ∈ breakpoints)

theorem Verdict.reported {breakpoints : List Int} {count : Nat} {failure? : Option Failure}
    {cpu : Processor} {reason : StopReason}
    (verdict : Verdict limit breakpoints count cpu failure? reason)
    (within : ∀ most ∈ limit, count ≤ most)
    (latched : ∀ fault, failure? = some (.fault fault) → cpu.mode = .faulted)
    (ready : failure? = some .aborted → cpu.mode = .ready) :
    Reported limit breakpoints count failure? cpu reason := by
  cases verdict with
  | fault fault =>
    have faulted := latched fault rfl
    exact ⟨within, by simp [faulted], by simp [faulted], by simp, by simp⟩
  | aborted =>
    have ready := ready rfl
    exact ⟨within, by simp [ready], by simp [ready], by simp, by simp⟩
  | met met =>
    cases met with
    | halt halted => exact ⟨within, by simp [halted], by simp [halted], by simp, by simp⟩
    | fault faulted => exact ⟨within, by simp [faulted], by simp [faulted], by simp, by simp⟩
    | @timeout most ready isLimit reached =>
      subst isLimit
      -- no step was taken beyond the limit, so it is reached exactly
      have exact : most = count := Nat.le_antisymm reached (within most rfl)
      exact ⟨within, by simp [ready], by simp [ready], by simp, by simp [ready, exact]⟩
    | breakpoint ready below positive here =>
      have under : limit ≠ some count := fun isLimit => absurd (below count isLimit) (Nat.lt_irrefl _)
      refine ⟨within, by simp [ready], by simp [ready], by simp, fun _ _ _ => ⟨ready, .inr rfl, ?_, ?_⟩⟩
      · simp [under]
      · exact iff_of_true rfl ⟨positive, below, here⟩

/-- **A run is repeated stepping.** When a run of an idle machine ends, outside step mode and with
observers that do not use the control panel, then the machine is the one that some completed steps lead
to, and perhaps one more step that fails. The reason says where it has stopped, and at none of the steps
before was there a condition to stop. -/
theorem run_course (aside : env.Aside) {patience : Nat} {m after : Machine σ} {reason : StopReason}
    (idle : m.control.running = false) (free : m.control.stepMode = false)
    (ran : run env patience limit m = .ok (.done reason) after) :
    ∃ count last failure? final, Course env m count last failure? final ∧ SameState after final ∧
      Reported limit m.control.breakpoints count failure? final.cpu reason ∧
      ∀ done now, Tries env m count failure? done now →
        GoesOn limit m.control.breakpoints done now.cpu := by
  obtain ⟨count, -, ended, loop, concludes⟩ := (run_done_iff idle).1 ran
  -- the steps of the idle machine follow those of the running one
  have follows := follows_of_aside aside (begun m).control m.control free rfl
  obtain ⟨last, failure?, final, explains, beside⟩ :=
    loop.explains follows (i := m) (.intro ⟨rfl, rfl⟩)
  -- the rounds are counted from zero, where every limit is still kept
  obtain ⟨course, within, tried, verdict⟩ := explains
  simp only [Nat.zero_add, Nat.zero_le, forall_const] at within tried verdict
  have failed : ∀ failure, failure? = some failure →
      last.cpu.mode = .ready ∧ step env last = .error failure final := by
    rintro failure rfl
    exact ⟨(tried count last ⟨course.walks, .inr ⟨rfl, rfl⟩⟩).ready, course.ends⟩
  refine ⟨count, last, failure?, final, course, ?_, ?_, tried⟩
  · cases beside with
    | intro tied =>
      have calm : ended.control.stopRequested = false := by
        rw [tied.1]
        rfl
      rw [conclude_eq reason calm] at concludes
      cases concludes
      exact .intro trivial
  · apply verdict.reported within
    · intro fault raised
      exact mode_of_fault (failed _ raised).1 (failed _ raised).2
    · intro raised
      exact ready_of_aborted aside (failed _ raised).1 (failed _ raised).2

/-- Observers count what they are told. -/
def counting : Env Nat :=
  ⟨fun _ _ => modify fun m => { m with notes := m.notes + 1 }, fun _ _ => pure 0⟩

theorem uniform_counting (tie : Tie) : counting.Uniform tie where
  notify := fun _ _ => .modify (fun _ => ⟨rfl, rfl⟩) fun _ _ _ => ⟨_, rfl⟩
  answer := fun _ _ => .pure _

theorem aside_counting : counting.Aside := fun _ _ => uniform_counting _

/-- A loop that stores into the display again and again, with a breakpoint where it begins. -/
def looping : Machine Nat :=
  { memory := beginning [(Instr.move .addressImmediate).opcode, 0xC0, 7,
      (Instr.jump .always .direct).opcode, 0]
    observers := { listeners := [.display, .hook 0] }
    control := { breakpoints := [0] }
    notes := 0 }

/-- A run comes back in this way, and leaves a machine that passes a check. -/
def comesTo (env : Env σ) (patience : Nat) (limit : Option Nat) (m : Machine σ) (ending : Ending)
    (check : Machine σ → Bool) : Bool :=
  yields (run env patience limit) m fun came after => decide (came = ending) && check after

theorem exists_of_comesTo (env : Env σ) (patience : Nat) (limit : Option Nat) (m : Machine σ)
    (ending : Ending) (check : Machine σ → Bool)
    (passed : comesTo env patience limit m ending check = true) :
    ∃ after, run env patience limit m = .ok ending after ∧ check after = true := by
  obtain ⟨came, after, ran, both⟩ := exists_of_yields (run env patience limit) m _ passed
  obtain ⟨same, checked⟩ := Bool.and_eq_true_iff.1 both
  obtain rfl := of_decide_eq_true same
  exact ⟨after, ran, checked⟩

/-- A run that comes back to the breakpoint where it has started. -/
theorem run_course_at_breakpoint :
    ∃ after, counting.Aside ∧ looping.control.running = false ∧ looping.control.stepMode = false ∧
      run counting 0 (some 10) looping = .ok (.done .breakpoint) after ∧
      ∃ count last failure? final, Course counting looping count last failure? final ∧
        SameState after final ∧
        Reported (some 10) looping.control.breakpoints count failure? final.cpu .breakpoint ∧
        ∀ done now, Tries counting looping count failure? done now →
          GoesOn (some 10) looping.control.breakpoints done now.cpu := by
  obtain ⟨after, ran, -⟩ := exists_of_comesTo counting 0 (some 10) looping (.done .breakpoint)
    (fun _ => true) (by decide +kernel)
  exact ⟨after, aside_counting, rfl, rfl, ran, run_course aside_counting rfl rfl ran⟩

end Machine

end EightBit
