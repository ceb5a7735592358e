import EightBit.Proofs.Machine.Reload
import EightBit.Proofs.Machine.StopCall

/-!
# Runs That Are Stopped From Inside

When an observer calls for a stop, the run ends with the instruction that is being executed. Nothing of the
call is left behind: the run is over, and the keyboard is empty.

So a further run goes on where the one that was stopped would have gone on. The two runs together come to
what one run comes to whose observers do not call for a stop, provided that the keyboard had nothing to lose.
A key that is pressed before the instruction has ended finds the abort marker in the keyboard, or makes way
for it, and is dropped.

## Main Definitions

- `Rounds`: completed rounds of a run.
- `Settles`, `CutShort`: an instruction that ends with a stop request, and a run that comes to it.
- `Alike`: the control panels of two runs that go on in the same way.
- `Resumable`: under which conditions a stop can be made up for.

## Main Statements

- `CutShort.run_eq`: the run ends with the instruction.
- `Env.Calls.turn_eq`, `Env.Calls.run_eq`: rounds and runs in which no stop is called for.
- `alike_rounds`: from a round on, two runs do the same.
- `stop_is_prompt`: the run ends at once, leaves nothing behind, and can be resumed.
-/

namespace EightBit

namespace Machine

variable {σ α : Type} {env quiet : Env σ} {limit : Option Nat} {m n last start stopped : Machine σ}
  {count : Nat} {reason : StopReason}

/-! ## Rounds that go on -/

/-- So many completed rounds of a run lead from one machine to the other. -/
inductive Rounds (env : Env σ) (limit : Option Nat) (m : Machine σ) : Nat → Machine σ → Prop
  | start : Rounds env limit m 0 m
  | next {count now after} (before : Rounds env limit m count now)
    (turned : turn env limit count now = .ok .next after) : Rounds env limit m (count + 1) after

/-- **A run goes on behind its completed rounds.** -/
theorem Rounds.onward (rounds : Rounds env limit m count last) (detached : Bool) (fuel : Nat) :
    (turn env limit 0 >>= proceed env limit detached (fuel + count) 0) m =
      (turn env limit count >>= proceed env limit detached fuel count) last := by
  induction rounds generalizing fuel with
  | start => rfl
  | @next count now after before turned ih =>
    have shift : fuel + (count + 1) = fuel + 1 + count := by omega
    rw [shift, ih, bind_of_ok turned]
    rfl

theorem calm_of_checks? {steps : Nat} (clear : checks? m limit steps = none) :
    m.control.stopRequested = false := by
  rw [checks?] at clear
  split at clear
  · cases clear
  · next calm => exact Bool.not_eq_true _ ▸ calm

/-- A round is only completed where no stop is requested. -/
theorem checks?_of_next {steps : Nat} {now : Machine σ} (turned : turn env limit steps m = .ok .next now) :
    checks? m limit steps = none := by
  rw [turn, get_bind] at turned
  cases checked : checks? m limit steps with
  | none => rfl
  | some reason =>
    rw [checked] at turned
    cases turned

/-- Without breakpoints, a round does not depend on a limit that is not reached. -/
theorem checks?_unlimited {steps : Nat} (free : m.control.breakpoints = [])
    (clear : checks? m limit steps = none) : checks? m none steps = none := by
  have calm := calm_of_checks? clear
  have ready := ((checks?_eq_none_iff calm).1 clear).ready
  refine (checks?_eq_none_iff calm).2 ⟨ready, nofun, fun _ here => ?_⟩
  rw [free] at here
  cases here

/-- When step mode grants a step, the round is a step. -/
theorem turn_of_granted {steps : Nat} (clear : checks? last limit steps = none)
    (granted : grantStep last = .ok (some true) start) :
    turn env limit steps last = settleStep start.cpu.regs.ip (step env) start := by
  rw [turn, get_bind, clear]
  exact bind_of_ok granted

/-- No token is used up once a stop is requested. -/
theorem calm_of_taken (taken : takeToken last = .ok (some true) start) :
    start.control.stopRequested = false := by
  rw [takeToken, get_bind] at taken
  split at taken
  · cases taken
  split at taken
  · cases taken
  · next calm =>
    cases taken
    exact Bool.not_eq_true _ ▸ calm

/-- Step mode grants no step once a stop is requested. -/
theorem calm_of_granted (calm : last.control.stopRequested = false)
    (granted : grantStep last = .ok (some true) start) : start.control.stopRequested = false := by
  rw [grantStep, get_bind] at granted
  split at granted
  · cases granted
    exact calm
  rw [get_bind] at granted
  split at granted
  · obtain ⟨⟨⟩, asked, -, taken⟩ := exists_of_bind_ok granted
    exact calm_of_taken taken
  · exact calm_of_taken granted

/-- To grant a step has nothing to do with the processor. -/
theorem cpu_of_granted {granted : Option Bool} (grants : grantStep last = .ok granted start) :
    start.cpu = last.cpu := by
  have lasting : Lasting fun now : Machine σ => now.cpu = last.cpu := ⟨fun _ _ _ _ _ same => same⟩
  have kept := lasting.grantStep.ensures last rfl
  rwa [grants] at kept

/-! ## The end of a run that was asked to stop -/

/-- A stop request stands until the run has ended. -/
theorem requested_of_proceed {detached : Bool} {fuel steps : Nat} {turned : Turn} {ending : Ending}
    {final : Machine σ} (ran : proceed env limit detached fuel steps turned m = .ok ending final)
    (requested : m.control.stopRequested = true) : final.control.stopRequested = true := by
  -- a round that ends takes the request to the end of the run
  have finishes : ∀ {steps fuel : Nat} {reason : StopReason},
      proceed env limit detached fuel steps (.finish reason) m = .ok ending final →
        final.control.stopRequested = true := by
    intro steps fuel reason ran
    rw [proceed_finish_eq, bind_of_ok (conclude_of_requested reason requested)] at ran
    cases ran
    exact requested
  cases turned with
  | finish reason => exact finishes ran
  | pause wait =>
    rw [proceed_pause_eq] at ran
    cases ran
    exact requested
  | next =>
    cases fuel with
    | zero =>
      cases ran
      exact requested
    | succ fuel =>
      -- one more round is begun, and the request ends it at its first condition
      have ends : turn env limit (steps + 1) m = .ok (.finish .stopped) m := turn_of_requested requested
      exact finishes ((bind_of_ok ends).symm.trans ran)

/-- Where no stop is requested at the end, none was requested before. -/
theorem calm_of_proceed {detached : Bool} {fuel steps : Nat} {turned : Turn} {ending : Ending}
    {final : Machine σ} (ran : proceed env limit detached fuel steps turned m = .ok ending final)
    (calm : final.control.stopRequested = false) : m.control.stopRequested = false := by
  by_contra requested
  rw [requested_of_proceed ran (Bool.not_eq_false _ ▸ requested)] at calm
  cases calm

/-- A run of a processor with a fault ends at once. -/
theorem run_of_faulted {patience : Nat} (idle : m.control.running = false)
    (faulted : m.cpu.mode = .faulted) :
    run env patience limit m = .ok (.done .fault) (concluded .fault (begun m)) := by
  have met : checks? (begun m) limit 0 = some .fault :=
    (checks?_eq_some_iff rfl).2 (.fault faulted)
  have ends : turn env limit 0 (begun m) = .ok (.finish .fault) (begun m) := by
    rw [turn, get_bind, met]
    rfl
  rw [run_of_idle idle, bind_of_ok ends]
  exact proceed_finish.2 ⟨rfl, conclude_eq .fault rfl⟩

/-- **An instruction comes to an end**, and this is the reason why a run ends that is asked to stop by then:
it has faulted, or else the request is met. An input that waits for a key has not come to an end. -/
inductive Settles (env : Env σ) (start : Machine σ) : StopReason → Machine σ → Prop
  | completed {now} (stepped : step env start = .ok () now) : Settles env start .stopped now
  | faulted {fault now} (failed : step env start = .error (.fault fault) now) : Settles env start .fault now
  | abandoned {now} (failed : step env start = .error .aborted now) : Settles env start .stopped now

/-- **A stop is called for in the middle of a run**: behind so many completed rounds another instruction is
begun, and when it has come to an end, a stop is requested. -/
inductive CutShort (env : Env σ) (limit : Option Nat) (m : Machine σ) (count : Nat)
    (start : Machine σ) (reason : StopReason) (stopped : Machine σ) : Prop
  | intro {last : Machine σ} (rounds : Rounds env limit m count last)
    (clear : checks? last limit count = none) (granted : grantStep last = .ok (some true) start)
    (settles : Settles env start reason stopped)
    (requested : stopped.control.stopRequested = true) :
    CutShort env limit m count start reason stopped

/-- **The run ends with that instruction.** -/
theorem CutShort.run_eq {patience : Nat}
    (cut : CutShort env limit (begun m) count start reason stopped)
    (idle : m.control.running = false) (enough : count < Machine.rounds limit patience) :
    ∃ journal, run env patience limit m =
      .ok (.done reason) (concluded reason { emptied stopped with journal }) := by
  obtain ⟨rounds, clear, granted, settles, requested⟩ := cut
  obtain ⟨fuel, all⟩ : ∃ fuel, Machine.rounds limit patience = fuel + 1 + count :=
    ⟨Machine.rounds limit patience - (count + 1), by omega⟩
  rw [run_of_idle idle, all, rounds.onward]
  have last : turn env limit count _ = settleStep start.cpu.regs.ip (step env) start :=
    turn_of_granted clear granted
  cases settles with
  | completed stepped =>
    -- the next round finds the request
    rw [settleStep_ok stepped] at last
    have ends : turn env limit (count + 1) stopped = .ok (.finish .stopped) stopped :=
      turn_of_requested requested
    refine ⟨stopped.journal, (bind_of_ok last).trans ((bind_of_ok ends).trans ?_)⟩
    exact proceed_finish.2 ⟨rfl, conclude_of_requested _ requested⟩
  | @faulted fault now failed =>
    rw [settleStep_error failed] at last
    have concludes := conclude_of_requested (m := noted fault stopped) .fault requested
    exact ⟨_, (bind_of_ok last).trans (proceed_finish.2 ⟨rfl, concludes⟩)⟩
  | abandoned failed =>
    rw [settleStep_error failed, settled, if_pos requested] at last
    exact ⟨stopped.journal,
      (bind_of_ok last).trans (proceed_finish.2 ⟨rfl, conclude_of_requested _ requested⟩)⟩

/-! ## Control panels of two runs -/

/-- **The control panels of two runs that go on in the same way**: there are no breakpoints, and step mode,
step tokens and stop request are the same. -/
structure Alike (a b : Control) : Prop where
  going : a.running = true
  otherGoing : b.running = true
  breakpoints : a.breakpoints = []
  otherBreakpoints : b.breakpoints = []
  stepMode : b.stepMode = a.stepMode
  tokens : b.tokens = a.tokens
  requested : b.stopRequested = a.stopRequested

/-- The action does the same for two runs that go on in the same way, and so they go on. -/
def KeepsAlike (first second : Action σ α) : Prop :=
  Coupled (Beside fun _ => Alike) first second (Beside fun _ => Alike) fun _ => Beside fun _ => Alike

/-- Of two runs on the same machine, only one has to be looked at. -/
theorem KeepsAlike.alike {action : Action σ α} (keeps : KeepsAlike action action)
    (alike : Alike m.control m.control) {a : α} {after : Machine σ} (ran : action m = .ok a after) :
    Alike after.control after.control := by
  have paired := keeps m m (.intro alike)
  rw [ran] at paired
  obtain ⟨other, same, beside⟩ := paired.of_ok
  obtain ⟨-, rfl⟩ := EStateM.Result.ok.inj same
  exact beside.tied

/-- What follows may end both runs. -/
theorem KeepsAlike.follow {β : Type} {first second : Action σ α} {next next' : α → Action σ β}
    (keeps : KeepsAlike first second)
    (behind : ∀ a, Coupled (Beside fun _ => Alike) (next a) (next' a) SameState fun _ => SameState) :
    Coupled (Beside fun _ => Alike) (first >>= next) (second >>= next') SameState fun _ => SameState :=
  Coupled.bind (keeps.mono (fun _ _ beside => beside) (fun _ _ beside => beside)
    fun _ _ _ beside => beside.mono fun _ _ _ _ => trivial) behind

theorem alike_modifyControl {f : Control → Control} (keeps : ∀ a b, Alike a b → Alike (f a) (f b)) :
    KeepsAlike (modifyControl f : Action σ Unit) (modifyControl f) := by
  refine Coupled.modify fun m n beside => ?_
  cases beside with
  | intro alike => exact .intro (keeps _ _ alike)

theorem alike_requestStop : KeepsAlike (requestStop : Action σ Unit) requestStop := by
  refine Coupled.get fun m n beside => ?_
  rw [if_pos beside.tied.going, if_pos beside.tied.otherGoing]
  refine Coupled.bind (alike_modifyControl fun a b alike => ?_) (fun _ => keyed_beside.modifyDevices _)
    m n beside
  exact ⟨alike.going, alike.otherGoing, alike.breakpoints, alike.otherBreakpoints, alike.stepMode,
    alike.tokens, rfl⟩

theorem alike_followPolicy : KeepsAlike (followPolicy : Action σ Unit) followPolicy := by
  refine Coupled.get fun m n beside => ?_
  rw [keyed_beside.operator_eq m n beside]
  -- what the operator does for want of a token may be to stop, to leave step mode, or to grant one
  cases m.operator.policy with
  | stop => exact alike_requestStop m n beside
  | resume =>
    refine alike_modifyControl (fun a b alike => ?_) m n beside
    exact ⟨alike.going, alike.otherGoing, alike.breakpoints, alike.otherBreakpoints, rfl, alike.tokens,
      alike.requested⟩
  | step =>
    refine alike_modifyControl (fun a b alike => ?_) m n beside
    exact ⟨alike.going, alike.otherGoing, alike.breakpoints, alike.otherBreakpoints, alike.stepMode,
      congrArg (· + 1) alike.tokens, alike.requested⟩
  | wait => exact .ok beside

theorem Alike.lacksToken_eq {a b : Control} (alike : Alike a b) : lacksToken b = lacksToken a := by
  rw [lacksToken, lacksToken, alike.stepMode, alike.tokens, alike.requested]

theorem alike_takeToken : KeepsAlike (takeToken : Action σ (Option Bool)) takeToken := by
  refine Coupled.get fun m n beside => ?_
  rw [beside.tied.lacksToken_eq, beside.tied.requested]
  split
  · exact .ok beside
  split
  · exact .ok beside
  · refine Coupled.bind (alike_modifyControl fun a b alike => ?_)
      (fun _ => Coupled.pure fun _ _ beside => beside) m n beside
    exact ⟨alike.going, alike.otherGoing, alike.breakpoints, alike.otherBreakpoints, alike.stepMode,
      congrArg (· - 1) alike.tokens, alike.requested⟩

theorem alike_grantStep : KeepsAlike (grantStep : Action σ (Option Bool)) grantStep := by
  refine Coupled.get fun m n beside => ?_
  rw [beside.tied.stepMode]
  split
  · exact .ok beside
  refine Coupled.get (fun m n beside => ?_) m n beside
  rw [beside.tied.lacksToken_eq]
  split
  · exact alike_followPolicy.bind (fun _ => alike_takeToken) m n beside
  · exact alike_takeToken m n beside

/-- Both runs end in the same way. -/
theorem alike_conclude (reason : StopReason) :
    Coupled (Beside fun _ => Alike) (conclude reason : Action σ Unit) (conclude reason) SameState
      fun _ => SameState := by
  intro m n beside
  have same := beside.tied.requested
  cases requested : m.control.stopRequested with
  | false =>
    rw [conclude_eq reason requested, conclude_eq reason (same.trans requested)]
    cases beside
    exact .ok (.intro trivial)
  | true =>
    rw [conclude_of_requested reason requested, conclude_of_requested reason (same.trans requested)]
    cases beside
    exact .ok (.intro trivial)

section Apart

variable (apart : quiet.Apart)
include apart

/-- Steps leave the control panel as it is. -/
theorem keeps_step_of_apart (P : Control → Prop) : Keeps (fun m => P m.control) (step quiet) := by
  refine ⟨fun m holds => ?_⟩
  -- both machines are the same one, so that what holds of its panel is carried by the coupling
  have paired := paired_step (apart.uniform fun a _ => P a) (fun _ _ _ tied => tied)
    (.intro holds : Beside (fun _ a _ => P a) m m)
  cases ran : step quiet m with
  | ok done after =>
    rw [ran] at paired
    obtain ⟨other, -, beside⟩ := paired.of_ok
    exact beside.tied
  | error failure after =>
    rw [ran] at paired
    obtain ⟨other, -, beside⟩ := paired.of_error
    exact beside.tied

theorem alike_step : KeepsAlike (step quiet) (step quiet) :=
  fun _ _ beside => paired_step (apart.uniform Alike) (fun _ _ _ tied => tied) beside

theorem alike_settleStep (ip : Int) :
    KeepsAlike (settleStep ip (step quiet)) (settleStep ip (step quiet)) := by
  refine Coupled.tryCatch ((alike_step apart).bind fun _ => Coupled.pure fun _ _ beside => beside)
    fun failure => ?_
  -- an abort looks at the request, which is the same on both; a fault is noted on both
  cases failure with
  | fault fault =>
    refine Coupled.get fun m n beside => ?_
    cases beside with
    | intro alike => exact .ok (.intro alike)
  | aborted =>
    refine Coupled.get fun m n beside => ?_
    rw [beside.tied.requested]
    exact .ok beside
  | waiting => exact Coupled.pure fun _ _ beside => beside
  | trap trap => exact Coupled.throw fun _ _ beside => beside
  | outOfBounds access => exact Coupled.throw fun _ _ beside => beside
  | refused refusal => exact Coupled.throw fun _ _ beside => beside

theorem alike_takeTurn : KeepsAlike (takeTurn quiet) (takeTurn quiet) := by
  refine alike_grantStep.bind fun granted => ?_
  rcases granted with _ | _ | _
  · exact Coupled.pure fun _ _ beside => beside
  · exact Coupled.pure fun _ _ beside => beside
  · refine Coupled.get fun m n beside => ?_
    rw [around_beside.cpu_eq beside]
    exact alike_settleStep apart _ m n beside

/-- **A round is the same for both runs**, however many rounds there were before. -/
theorem alike_turn (steps steps' : Nat) : KeepsAlike (turn quiet none steps) (turn quiet none steps') := by
  refine Coupled.get fun m n beside => ?_
  have same : checks? n none steps' = checks? m none steps := by
    have alike := beside.tied
    simp only [checks?, around_beside.cpu_eq beside, alike.requested, alike.breakpoints,
      alike.otherBreakpoints, Option.any_none, List.not_mem_nil, and_false, if_false]
  rw [same]
  cases checks? m none steps with
  | some reason => exact .ok beside
  | none => exact alike_takeTurn apart m n beside

/-- What follows a round is the same for both runs. -/
theorem alike_proceed (detached detached' : Bool) (fuel steps steps' : Nat) (turned : Turn) :
    Coupled (Beside fun _ => Alike) (proceed quiet none detached fuel steps turned)
      (proceed quiet none detached' fuel steps' turned) SameState fun _ => SameState := by
  have finishes : ∀ fuel steps steps' reason, Coupled (Beside fun _ => Alike)
      (proceed quiet none detached fuel steps (.finish reason))
      (proceed quiet none detached' fuel steps' (.finish reason)) SameState fun _ => SameState := by
    intro fuel steps steps' reason
    rw [proceed_finish_eq, proceed_finish_eq]
    exact (alike_conclude reason).bind fun _ => Coupled.pure fun _ _ same => same
  have waits : ∀ fuel steps steps' wait, Coupled (Beside fun _ => Alike)
      (proceed quiet none detached fuel steps (.pause wait))
      (proceed quiet none detached' fuel steps' (.pause wait)) SameState fun _ => SameState := by
    intro fuel steps steps' wait m n beside
    rw [proceed_pause_eq, proceed_pause_eq]
    cases beside
    exact .ok (.intro trivial)
  -- on the rounds that are left: whatever is not the last one is followed by another
  induction fuel generalizing steps steps' turned with
  | zero =>
    cases turned with
    | finish reason => exact finishes _ _ _ _
    | pause wait => exact waits _ _ _ _
    | next => exact Coupled.pure fun _ _ beside => beside.mono fun _ _ _ _ => trivial
  | succ fuel ih =>
    cases turned with
    | finish reason => exact finishes _ _ _ _
    | pause wait => exact waits _ _ _ _
    | next => exact (alike_turn apart _ _).follow fun turned => ih _ _ turned

/-- **From a round on, both runs do the same.** -/
theorem alike_rounds (detached detached' : Bool) (fuel steps steps' : Nat) :
    Coupled (Beside fun _ => Alike)
      (turn quiet none steps >>= proceed quiet none detached fuel steps)
      (turn quiet none steps' >>= proceed quiet none detached' fuel steps') SameState
      fun _ => SameState :=
  (alike_turn apart _ _).follow fun turned => alike_proceed apart _ _ _ _ _ turned

end Apart

/-! ## Rounds in which no stop is called for -/

end Machine

namespace Env.Calls

open Machine

variable {σ : Type} {env quiet : Env σ} (calls : quiet.Calls env) {limit : Option Nat}
  {m last : Machine σ}
include calls

/-- **A round in which no stop is called for** is a round of the observers that never call for one. -/
theorem turn_eq {steps : Nat} {turned : Turn} {now : Machine σ} (alike : Alike m.control m.control)
    (ran : turn env limit steps m = .ok turned now) (calm : now.control.stopRequested = false) :
    turn quiet limit steps m = .ok turned now := by
  cases checked : checks? m limit steps with
  | some reason =>
    rw [turn, get_bind, checked] at ran ⊢
    exact ran
  | none =>
    rw [turn, get_bind, checked] at ran ⊢
    obtain ⟨granted, start, grants, went⟩ := exists_of_bind_ok (ran : takeTurn env m = _)
    refine (bind_of_ok grants : takeTurn quiet m = _).trans ?_
    -- a step is waited for, refused, or granted
    rcases granted with _ | _ | _
    · exact went
    · exact went
    · have going := (alike_grantStep.alike alike grants).going
      have paired := calls.step start start ⟨rfl, going⟩
      change settleStep start.cpu.regs.ip (Machine.step env) start = .ok turned now at went
      show settleStep start.cpu.regs.ip (Machine.step quiet) start = .ok turned now
      generalize stepped : Machine.step quiet start = result,
        stepped' : Machine.step env start = result' at paired
      cases paired with
      | ok perhaps =>
        rw [settleStep_ok stepped'] at went
        obtain ⟨rfl, rfl⟩ := EStateM.Result.ok.inj went
        rw [settleStep_ok stepped, perhaps.eq_of_calm calm]
      | @error failure one other perhaps =>
        rw [settleStep_error stepped'] at went
        have kept : other.control.stopRequested = false := by
          cases failure <;> cases went <;> exact calm
        rw [perhaps.eq_of_calm kept] at went
        exact (settleStep_error stepped).trans went

/-- So are all rounds before a stop is called for. Without breakpoints, they do not depend on a limit. -/
theorem reaches (apart : quiet.Apart) {count : Nat} (rounds : Rounds env limit m count last)
    (alike : Alike m.control m.control) (calm : last.control.stopRequested = false) :
    Rounds quiet none m count last ∧ Alike last.control last.control := by
  -- up to the last round nobody has called, so the rounds are the quiet ones
  induction rounds with
  | start => exact ⟨.start, alike⟩
  | @next count now after before turned ih =>
    have clear := checks?_of_next turned
    have calmBefore := calm_of_checks? clear
    obtain ⟨quietBefore, alikeNow⟩ := ih calmBefore
    have turned' := calls.turn_eq alikeNow turned calm
    -- in the quiet run there is no limit, and the conditions are clear as well
    have again : turn quiet none count now = .ok .next after := by
      rw [turn, get_bind, clear] at turned'
      rw [turn, get_bind, checks?_unlimited alikeNow.breakpoints clear]
      exact turned'
    exact ⟨quietBefore.next again, (alike_turn apart count count).alike alikeNow again⟩

/-- **The rounds in which no stop is called for** are the same up to the end of the run. -/
theorem rounds_eq (apart : quiet.Apart) {detached : Bool} {fuel steps : Nat} {ending : Ending}
    {final : Machine σ} (alike : Alike m.control m.control)
    (ran : (turn env none steps >>= proceed env none detached fuel steps) m = .ok ending final)
    (calm : final.control.stopRequested = false) :
    (turn quiet none steps >>= proceed quiet none detached fuel steps) m = .ok ending final := by
  -- by the rounds that are left, none of which has been requested to stop
  induction fuel generalizing steps m with
  | zero =>
    obtain ⟨turned, now, first, went⟩ := exists_of_bind_ok ran
    rw [bind_of_ok (calls.turn_eq alike first (calm_of_proceed went calm))]
    cases turned <;> exact went
  | succ fuel ih =>
    obtain ⟨turned, now, first, went⟩ := exists_of_bind_ok ran
    have first' := calls.turn_eq alike first (calm_of_proceed went calm)
    rw [bind_of_ok first']
    cases turned with
    | finish reason => exact went
    | pause wait => exact went
    | next => exact ih ((alike_turn apart _ _).alike alike first') went

/-- **A run in which no stop is called for** is a run of the observers that never call for one. -/
theorem run_eq (apart : quiet.Apart) {patience : Nat} {ending : Ending} {final : Machine σ}
    (idle : m.control.running = false) (free : m.control.breakpoints = [])
    (ran : run env patience none m = .ok ending final) (calm : final.control.stopRequested = false) :
    run quiet patience none m = .ok ending final := by
  have alike : Alike (begun m).control (begun m).control := ⟨rfl, rfl, free, free, rfl, rfl, rfl⟩
  rw [run_of_idle idle] at ran ⊢
  exact calls.rounds_eq apart alike ran calm

end Env.Calls

namespace Machine

variable {σ : Type} {env quiet : Env σ} {limit : Option Nat} {m now last start stopped : Machine σ}
  {count : Nat} {reason : StopReason}

/-! ## Making up for a stop -/

/-- **Under these conditions a stop can be made up for.** There are no breakpoints. What observers and
devices do besides calling for a stop has nothing to do with the control panel, and does not abandon the
instruction. Without the call, the keyboard would be empty behind the instruction. -/
structure Resumable (quiet env : Env σ) (m start : Machine σ) : Prop where
  apart : quiet.Apart
  calls : quiet.Calls env
  breakpoints : m.control.breakpoints = []
  kept : ∀ now, step env start ≠ .error .aborted now
  empty : ∀ reason now, Settles quiet start reason now → now.devices.keyboard.slot = none

/-- **When a stop was called for, the next run begins beside the machine without the call.** -/
theorem PerhapsCalled.beside_begun (perhaps : PerhapsCalled now stopped)
    (calm : now.control.stopRequested = false) (requested : stopped.control.stopRequested = true)
    (free : now.control.breakpoints = []) (empty : now.devices.keyboard.slot = none)
    (reason : StopReason) (journal : List Journal.Record) :
    Beside (fun _ => Alike) now (begun (concluded reason { emptied stopped with journal })) := by
  obtain ⟨keyboard, written, rfl⟩ := perhaps.exists_called calm requested
  have next : begun (concluded reason { emptied (now.called keyboard written) with journal }) =
      { now with
        control := (begun (concluded reason (now.called keyboard written))).control
        journal := (concluded reason { now with journal }).journal } := by
    have nothing : now.devices = { now.devices with keyboard := ⟨none⟩ } := by rw [← empty]
    rw [nothing]
    rfl
  rw [next]
  exact .intro ⟨perhaps.going, rfl, free, free, rfl, rfl, calm.symm⟩

section Resumable

variable (resumable : Resumable quiet env m start)
include resumable

/-- Without the call, the run comes to the same instruction. -/
theorem Resumable.reaches (cut : CutShort env limit (begun m) count start reason stopped) :
    ∃ last, Rounds quiet none (begun m) count last ∧ checks? last none count = none ∧
      grantStep last = .ok (some true) start ∧ start.cpu.mode = .ready ∧
      start.control.stopRequested = false ∧ Alike start.control start.control := by
  obtain ⟨rounds, clear, granted, -, -⟩ := cut
  have alike : Alike (begun m).control (begun m).control :=
    ⟨rfl, rfl, resumable.breakpoints, resumable.breakpoints, rfl, rfl, rfl⟩
  have calm := calm_of_checks? clear
  obtain ⟨before, alikeLast⟩ := resumable.calls.reaches resumable.apart rounds alike calm
  refine ⟨_, before, checks?_unlimited alikeLast.breakpoints clear, granted, ?_,
    calm_of_granted calm granted, alike_grantStep.alike alikeLast granted⟩
  rw [cpu_of_granted granted]
  exact ((checks?_eq_none_iff calm).1 clear).ready

/-- The instruction has left the run without a breakpoint. -/
theorem Resumable.free (cut : CutShort env limit (begun m) count start reason stopped) :
    stopped.control.breakpoints = [] := by
  obtain ⟨-, -, -, -, -, -, alike⟩ := resumable.reaches cut
  obtain ⟨-, -, -, settles, -⟩ := cut
  -- the step that was cut short, beside the one that would have been taken without the call
  have paired := resumable.calls.step start start ⟨rfl, alike.going⟩
  have leaves := (keeps_step_of_apart resumable.apart fun control => control.breakpoints = []).ensures
    start alike.breakpoints
  generalize step quiet start = result at paired leaves
  -- in each of the ways it can have ended, the breakpoints are still none
  cases settles with
  | completed stepped =>
    rw [stepped] at paired
    cases paired with
    | ok perhaps => exact perhaps.breakpoints_eq.trans leaves
  | faulted failed =>
    rw [failed] at paired
    cases paired with
    | error perhaps => exact perhaps.breakpoints_eq.trans leaves
  | abandoned failed =>
    rw [failed] at paired
    cases paired with
    | error perhaps => exact perhaps.breakpoints_eq.trans leaves

/-- **The next run goes on where the stopped one would have gone on**, however the instruction has ended. -/
theorem Resumable.paired_runs (idle : m.control.running = false)
    (cut : CutShort env limit (begun m) count start reason stopped)
    (journal : List Journal.Record) (patience : Nat) :
    Paired SameState (fun _ => SameState) (run quiet (patience + (count + 1)) none m)
      (run quiet patience none (concluded reason { emptied stopped with journal })) := by
  obtain ⟨last, before, clear, granted, ready, calmStart, alike⟩ := resumable.reaches cut
  obtain ⟨-, -, -, settles, requested⟩ := cut
  have turned : turn quiet none count last = settleStep start.cpu.regs.ip (step quiet) start :=
    turn_of_granted clear granted
  have all : Machine.rounds none (patience + (count + 1)) = patience + 1 + count := by
    simp only [Machine.rounds, Option.elim_none]
    omega
  rw [run_of_idle idle, all, before.onward]
  -- both runs execute the instruction, and the call makes no difference for it
  have paired := resumable.calls.step start start ⟨rfl, alike.going⟩
  have leaves := (keeps_step_of_apart resumable.apart fun control =>
    control.stopRequested = false ∧ control.breakpoints = []).ensures start ⟨calmStart, alike.breakpoints⟩
  generalize ran : step quiet start = result at paired leaves
  cases settles with
  | @completed stopped stepped =>
    rw [stepped] at paired
    cases paired with
    | @ok _ now _ perhaps =>
      obtain ⟨calm, free⟩ := leaves
      have empty := resumable.empty _ _ (.completed ran)
      rw [settleStep_ok ran] at turned
      rw [bind_of_ok turned, run_of_idle rfl]
      exact alike_rounds resumable.apart _ _ _ (count + 1) 0 now _
        (perhaps.beside_begun calm requested free empty _ _)
  | @faulted fault stopped failed =>
    rw [failed] at paired
    cases paired with
    | @error _ now _ perhaps =>
      obtain ⟨calm, free⟩ := leaves
      have empty := resumable.empty _ _ (.faulted ran)
      have beside := perhaps.beside_begun calm requested free empty .fault journal
      have faulted : (concluded .fault { emptied stopped with journal }).cpu.mode = .faulted := by
        rw [← mode_of_fault ready ran, ← around_beside.cpu_eq beside]
        rfl
      -- the one run ends with the fault, and the other one finds it
      rw [settleStep_error ran] at turned
      have ends : proceed quiet none false (patience + 1) count (.finish .fault) (noted fault now) =
          .ok (.done .fault) (concluded .fault (noted fault now)) :=
        proceed_finish.2 ⟨rfl, conclude_eq _ calm⟩
      rw [bind_of_ok turned, ends, run_of_faulted rfl faulted]
      generalize begun (concluded .fault { emptied stopped with journal }) = next at beside
      cases beside
      exact .ok (.intro trivial)
  | abandoned failed => exact absurd failed (resumable.kept _)

end Resumable

/-- **A stop that is called for from inside is prompt, and leaves nothing behind.** When an observer calls for
a stop while an instruction is being executed, then the run ends with this instruction, with the fault if it
has faulted, and because of the stop otherwise. The machine is left as the instruction has left it, no run is
going on, and the keyboard is empty.

So the stop can be made up for, if the keyboard would be empty without it. With observers that do not call for
a stop, a further run without a limit comes back in the same way as one run without a limit that was not
stopped, and with the same machine but for control panel and journal. A further run in which nobody happens to
call for a stop is such a run. -/
theorem stop_is_prompt {patience : Nat} (idle : m.control.running = false)
    (cut : CutShort env limit (begun m) count start reason stopped)
    (enough : count < Machine.rounds limit patience) :
    ∃ after, run env patience limit m = .ok (.done reason) after ∧ SameState (emptied stopped) after ∧
      after.control.running = false ∧ after.devices.keyboard.slot = none ∧
      ∀ quiet, Resumable quiet env m start →
        (∀ more, Paired SameState (fun _ => SameState) (run quiet (more + (count + 1)) none m)
          (run quiet more none after)) ∧
        ∀ more ending final, run env more none after = .ok ending final →
          final.control.stopRequested = false → run quiet more none after = .ok ending final := by
  obtain ⟨journal, ran⟩ := cut.run_eq idle enough
  refine ⟨_, ran, .intro trivial, rfl, rfl, fun quiet resumable => ⟨fun more => ?_, ?_⟩⟩
  · exact resumable.paired_runs idle cut journal more
  · intro more ending final again calm
    have free : stopped.control.breakpoints = [] := resumable.free cut
    exact resumable.calls.run_eq resumable.apart rfl free again calm

/-- Observers count what they are told, and then call for a stop. -/
def calling : Env Nat where
  notify := fun hook notice => do
    counting.notify hook notice
    requestStop
  answer := fun _ _ => pure 0

theorem calls_calling : counting.Calls calling where
  notify := fun hook notice => by
    have own : Private (counting.notify hook notice) :=
      ⟨fun notes => (.ok (), notes + 1), fun _ => rfl⟩
    have calls := own.calls.bind fun _ => calls_requestStop
    rwa [bind_pure_unit] at calls
  answer := fun _ _ => .pure 0

/-- The first instruction writes a port, and an observer of the port calls for a stop. -/
theorem stop_is_prompt_at_port :
    ∃ stopped after, writingPort.control.running = false ∧
      CutShort calling (some 9) (begun writingPort) 0 (begun writingPort) .stopped stopped ∧
      0 < Machine.rounds (some 9) 0 ∧ Resumable counting calling writingPort (begun writingPort) ∧
      run calling 0 (some 9) writingPort = .ok (.done .stopped) after ∧
      SameState (emptied stopped) after ∧ after.control.running = false ∧
      after.devices.keyboard.slot = none ∧
      (∀ more, Paired SameState (fun _ => SameState) (run counting (more + (0 + 1)) none writingPort)
        (run counting more none after)) ∧
      ∀ more ending final, run calling more none after = .ok ending final →
        final.control.stopRequested = false → run counting more none after = .ok ending final := by
  obtain ⟨stopped, stepped, requested⟩ := exists_of_leadsTo calling (begun writingPort)
    (fun now => now.control.stopRequested) (by decide +kernel)
  obtain ⟨now, silently, empty⟩ := exists_of_leadsTo counting (begun writingPort)
    (fun now => decide (now.devices.keyboard.slot = none)) (by decide +kernel)
  -- the run is cut short in its first step, by the write of the port
  have cut : CutShort calling (some 9) (begun writingPort) 0 (begun writingPort)
      .stopped stopped :=
    .intro .start (by decide +kernel) rfl (.completed stepped) requested
  have resumable : Resumable counting calling writingPort (begun writingPort) := by
    -- nothing else about the run is disturbed, as each outcome of the step shows
    refine ⟨fun _ _ => uniform_counting _, calls_calling, rfl, fun now failed => ?_, ?_⟩
    · rw [stepped] at failed
      cases failed
    · intro reason other settles
      cases settles with
      | completed ran =>
        rw [silently] at ran
        cases ran
        exact of_decide_eq_true empty
      | faulted failed =>
        rw [silently] at failed
        cases failed
      | abandoned failed =>
        rw [silently] at failed
        cases failed
  obtain ⟨after, ran, same, idle, nothing, resumed⟩ :=
    stop_is_prompt rfl cut (by decide : 0 < Machine.rounds (some 9) 0)
  exact ⟨stopped, after, rfl, cut, by decide, resumable, ran, same, idle, nothing,
    resumed counting resumable⟩

/-- The second observer presses a key. -/
def typingAlong : Env Unit where
  notify := fun hook _ => if hook = 0 then pure () else discard (press (.code 107))
  answer := fun _ _ => pure 0

/-- The first observer calls for a stop, and the second one presses a key. -/
def stoppingFirst : Env Unit where
  notify := fun hook _ => if hook = 0 then requestStop else discard (press (.code 107))
  answer := fun _ _ => pure 0

theorem calls_stoppingFirst : typingAlong.Calls stoppingFirst where
  notify := fun hook notice => by
    simp only [typingAlong, stoppingFirst]
    split
    · exact calls_requestStop
    · exact calls_press _
  answer := fun _ _ => .pure 0

/-- Both observers follow the lights. The program switches the lights, and then reads a key. -/
def signallingForKey : Machine Unit :=
  { memory := beginning [Instr.output.opcode, lightsPort, Instr.input.opcode, keyboardPort,
      Instr.halt.opcode]
    observers := { writeTaps := [(lightsPort, 0), (lightsPort, 1)] }
    notes := () }

/-- **A key that is pressed after the call is lost.** It was not pending when the stop was called for, but the
abort marker is in its place. Without the stop, the program reads the key and halts; with the stop, the further
run finds no key. -/
theorem exists_key_dropped :
    ∃ first second whole, typingAlong.Calls stoppingFirst ∧
      signallingForKey.devices.keyboard.slot = none ∧ signallingForKey.control.breakpoints = [] ∧
      run stoppingFirst 10 none signallingForKey = .ok (.done .stopped) first ∧
      run stoppingFirst 10 none first = .ok (.done .aborted) second ∧
      second.control.stopRequested = false ∧
      run typingAlong 10 none signallingForKey = .ok (.done .halt) whole ∧
      second.cpu.instructions = 1 ∧ whole.cpu.instructions = 3 := by
  obtain ⟨first, ran, again⟩ := exists_of_comesTo stoppingFirst 10 none signallingForKey
    (.done .stopped) (fun first => comesTo stoppingFirst 10 none first (.done .aborted) fun second =>
      decide (second.control.stopRequested = false ∧ second.cpu.instructions = 1)) (by decide +kernel)
  obtain ⟨second, resumed, lost⟩ := exists_of_comesTo _ _ _ _ _ _ again
  obtain ⟨whole, unstopped, counted⟩ := exists_of_comesTo typingAlong 10 none signallingForKey
    (.done .halt) (fun whole => decide (whole.cpu.instructions = 3)) (by decide +kernel)
  obtain ⟨calm, short⟩ := of_decide_eq_true lost
  exact ⟨first, second, whole, calls_stoppingFirst, rfl, rfl, ran, resumed, calm, unstopped, short,
    of_decide_eq_true counted⟩

end Machine

end EightBit
