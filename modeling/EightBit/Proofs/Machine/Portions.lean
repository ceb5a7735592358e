import EightBit.Proofs.Machine.Breakpoints
import EightBit.Proofs.Machine.Keys
import EightBit.Proofs.Machine.Progress
import EightBit.Proofs.Machine.Split

/-!
# Keys in Portions

When an input finds no key, the run ends, and with further keys another run does the input again. So it
makes no difference in which portions an operator gets the keys, as long as a run follows each of them.

The run with all keys and the runs with portions go side by side. The machine of the first one is always
that of the others with the further keys, except where a portion is used up. There the one machine stays
as it is while the other one ends its run, gets its next portion, and begins again.

## Main Definitions

- `Round`: one round of two runs, of which the second one has further keys.
- `Reaches`: the rounds of a run without a limit.
- `Sittings`: runs with one portion after the other.
- `Sat`: what each of them has come to.

## Main Statements

- `Supplied.round`: both runs take the same round, unless the first one is at an input without a key.
- `Reaches.compare`: where the run with fewer keys ends.
- `run_portions`: runs with portions of keys come to what one run with all of them comes to.
-/

namespace EightBit.Machine

variable {σ : Type} {env : Env σ} {rest : List Key} {m n : Machine σ}

/-! ## Rounds with further keys -/

/-- The processor has stopped for this reason. -/
inductive Over (cpu : Processor) : StopReason → Prop
  | halt (halted : cpu.mode = .halted) : Over cpu .halt
  | fault (faulted : cpu.mode = .faulted) : Over cpu .fault

/-- **One round of both runs.** The first one ends at an input without a key, or both go on, or both end. -/
inductive Round (env : Env σ) (rest : List Key) (m n : Machine σ) : Prop
  | dry (dry : Dry m) (given : ∀ steps, turn env none steps m = .ok (.finish .aborted) m)
  | next {now other} (first : ∀ steps, turn env none steps m = .ok .next now)
    (second : ∀ steps, turn env none steps n = .ok .next other) (supplied : Supplied rest now other)
  | finished {reason ended other} (finished : Over ended.cpu reason)
    (first : ∀ steps, turn env none steps m = .ok (.finish reason) ended)
    (second : ∀ steps, turn env none steps n = .ok (.finish reason) other)
    (supplied : Supplied rest ended other)

theorem Supplied.here (supplied : Supplied rest m n) : Unhindered m.control := by
  cases supplied with
  | intro attended here there => exact here

theorem Supplied.there (supplied : Supplied rest m n) : Unhindered n.control := by
  cases supplied with
  | intro attended here there => exact there

/-- Without limit and breakpoints, only the mode can end a run before a step. -/
theorem turn_of_unhindered (env : Env σ) (unhindered : Unhindered m.control) (steps : Nat) :
    turn env none steps m = match m.cpu.mode with
      | .halted => .ok (.finish .halt) m
      | .faulted => .ok (.finish .fault) m
      | .ready => settleStep m.cpu.regs.ip (step env) m := by
  rw [turn_eq unhindered.free]
  cases mode : m.cpu.mode <;> simp [checks?, unhindered.calm, unhindered.breakpoints, mode]

/-- **Both runs take the same round**, unless the first one is at an input without a key. -/
theorem Supplied.round (own : env.Private) (supplied : Supplied rest m n) : Round env rest m n := by
  have sameCpu := beyond_supplied.cpu_eq supplied
  have turnM := turn_of_unhindered env supplied.here
  have turnN := turn_of_unhindered env supplied.there
  rw [sameCpu] at turnN
  -- a halted or faulted processor ends the round on both machines
  cases mode : m.cpu.mode with
  | halted =>
    rw [mode] at turnM turnN
    exact .finished (.halt mode) turnM turnN supplied
  | faulted =>
    rw [mode] at turnM turnN
    exact .finished (.fault mode) turnM turnN supplied
  | ready =>
    rw [mode] at turnM turnN
    -- with no key left on the first machine, the instruction that waits for one is aborted there
    by_cases dry : Dry m
    · have given : step env m = .error .aborted m := step_of_dry supplied.attended dry
      refine .dry dry fun steps => ((turnM steps).trans (settleStep_error given)).trans ?_
      simp only [settled, supplied.here.calm]
      rfl
    -- otherwise both machines take the step, and it is the same one
    · have paired := paired_step_supplied own supplied dry
      cases stepped : step env m with
      | ok done now =>
        rw [stepped] at paired
        obtain ⟨other, stepped', related⟩ := paired.of_ok
        exact .next (fun steps => (turnM steps).trans (settleStep_ok stepped))
          (fun steps => (turnN steps).trans (settleStep_ok stepped')) related
      | error failure now =>
        rw [stepped] at paired
        obtain ⟨other, failed', own, kept, related⟩ := paired.of_error
        -- the step was not aborted and does not wait, so its failure is a fault
        obtain ⟨fault, rfl⟩ : ∃ fault, failure = .fault fault := by
          obtain fault | aborted | waiting := step_error_cases stepped
          · exact fault
          · exact absurd aborted own
          · exact absurd waiting kept
        have faulted := mode_of_fault mode stepped
        have finished : Over (noted fault now).cpu .fault := .fault faulted
        refine .finished finished
          (fun steps => (turnM steps).trans (settleStep_error stepped))
          (fun steps => (turnN steps).trans (settleStep_error failed')) ?_
        cases related with
        | intro attended here there =>
          exact .intro ⟨attended.patience, attended.unmarked, attended.untraced⟩ here there

/-! ## Whole runs with further keys -/

/-- **The rounds from here end like this**, however many there were before. -/
inductive Reaches (env : Env σ) : Machine σ → StopReason → Machine σ → Prop
  | finish {m reason ended} (last : ∀ steps, turn env none steps m = .ok (.finish reason) ended) :
    Reaches env m reason ended
  | next {m now reason ended} (first : ∀ steps, turn env none steps m = .ok .next now)
    (rest : Reaches env now reason ended) : Reaches env m reason ended

theorem reaches_next_iff {now ended : Machine σ} {reason : StopReason}
    (first : ∀ steps, turn env none steps m = .ok .next now) :
    Reaches env m reason ended ↔ Reaches env now reason ended := by
  constructor
  · intro reaches
    cases reaches with
    | finish last => cases (first 0).symm.trans (last 0)
    | next first' rest =>
      obtain ⟨-, rfl⟩ := EStateM.Result.ok.inj ((first 0).symm.trans (first' 0))
      exact rest
  · exact .next first

theorem reaches_finish_iff {reason cause : StopReason} {ended stopped : Machine σ}
    (last : ∀ steps, turn env none steps m = .ok (.finish cause) stopped) :
    Reaches env m reason ended ↔ cause = reason ∧ stopped = ended := by
  constructor
  · intro reaches
    cases reaches with
    | finish last' =>
      cases (last 0).symm.trans (last' 0)
      exact ⟨rfl, rfl⟩
    | next first rest => cases (last 0).symm.trans (first 0)
  · rintro ⟨rfl, rfl⟩
    exact .finish last

section Reaches

variable (own : env.Private)
include own

/-- **The run with fewer keys comes to an end** if the other one does. -/
theorem Reaches.terminates {reason : StopReason} {ended : Machine σ} (reaches : Reaches env n reason ended)
    (supplied : Supplied rest m n) : ∃ cause stopped, Reaches env m cause stopped := by
  -- round by round: the machine with fewer keys can only stop earlier
  induction reaches generalizing m with
  | finish last =>
    cases supplied.round own with
    | dry dry given => exact ⟨_, _, .finish given⟩
    | finished finished first second supplied => exact ⟨_, _, .finish first⟩
    | next first second supplied => cases (second 0).symm.trans (last 0)
  | next first' _ ih =>
    cases supplied.round own with
    | dry dry given => exact ⟨_, _, .finish given⟩
    | finished finished first second supplied => exact ⟨_, _, .finish first⟩
    | next first second supplied =>
      -- both have gone on to the same round
      obtain ⟨-, rfl⟩ := EStateM.Result.ok.inj ((second 0).symm.trans (first' 0))
      obtain ⟨cause, stopped, reaches⟩ := ih supplied
      exact ⟨cause, stopped, .next first reaches⟩

/-- **Where the run with fewer keys ends**, the other one ends as well, or the keys are used up there and
the other one is still on its way. -/
theorem Reaches.compare {cause : StopReason} {stopped : Machine σ} (reaches : Reaches env m cause stopped)
    (supplied : Supplied rest m n) :
    (Over stopped.cpu cause ∧ ∃ ended, Reaches env n cause ended ∧ Supplied rest stopped ended) ∨
      (cause = .aborted ∧ Dry stopped ∧ ∃ now, Supplied rest stopped now ∧
        ∀ reason ended, Reaches env n reason ended ↔ Reaches env now reason ended) := by
  -- round by round: the two runs end alike, or the first one runs dry and the second is where it was
  induction reaches generalizing n with
  | finish last =>
    cases supplied.round own with
    | dry dry given =>
      cases (given 0).symm.trans (last 0)
      exact .inr ⟨rfl, dry, _, supplied, fun _ _ => .rfl⟩
    | finished finished first second supplied =>
      cases (first 0).symm.trans (last 0)
      exact .inl ⟨finished, _, .finish second, supplied⟩
    | next first second supplied => cases (first 0).symm.trans (last 0)
  | next first' _ ih =>
    cases supplied.round own with
    | dry dry given => cases (given 0).symm.trans (first' 0)
    | finished finished first second supplied => cases (first 0).symm.trans (first' 0)
    | next first second supplied =>
      cases (first 0).symm.trans (first' 0)
      obtain ⟨finished, ended, reaches, supplied⟩ | ⟨aborted, dry, now, supplied, same⟩ := ih supplied
      · exact .inl ⟨finished, ended, .next second reaches, supplied⟩
      -- the rounds that are taken in common do not change what the second machine reaches
      · exact .inr ⟨aborted, dry, now, supplied, fun reason ended =>
          (reaches_next_iff second).trans (same reason ended)⟩

/-- The rounds of a loop without a limit. -/
theorem reaches_iff_loop {reason : StopReason} {ended : Machine σ} (steps : Nat)
    (supplied : Supplied [] m m) :
    Reaches env m reason ended ↔ ∃ count, Loop env none count steps m reason ended := by
  -- without a limit and without breakpoints the number of steps is no matter to a round
  have again : ∀ {now : Machine σ} {steps turned after}, Supplied [] now now →
      turn env none steps now = .ok turned after → ∀ other, turn env none other now = .ok turned after := by
    intro now steps turned after supplied ran other
    rw [turn_of_unhindered env supplied.here] at ran ⊢
    exact ran
  constructor
  · intro reaches
    -- from runs to loops the steps are counted; from loops to runs their number is forgotten
    clear supplied
    induction reaches generalizing steps with
    | finish last => exact ⟨0, .finish (last steps)⟩
    | next first _ ih =>
      obtain ⟨count, loop⟩ := ih (steps + 1)
      exact ⟨count + 1, .next (first steps) loop⟩
  · rintro ⟨count, loop⟩
    induction loop with
    | finish last => exact .finish (again supplied last)
    | next first rest ih =>
      refine .next (again supplied first) (ih ?_)
      cases supplied.round own with
      | dry dry given => cases (given _).symm.trans first
      | finished finished finish second supplied => cases (finish _).symm.trans first
      | next first' second supplied =>
        cases (first' _).symm.trans first
        cases (second _).symm.trans first
        exact supplied

end Reaches

/-! ## Runs -/

/-- A run without a limit is done, for this reason and with this machine. -/
def Finishes (env : Env σ) (m : Machine σ) (reason : StopReason) (after : Machine σ) : Prop :=
  ∃ patience, run env patience none m = .ok (.done reason) after

/-- An attended machine that is idle, with nothing on its control panel that would end a run. -/
structure Resting (m : Machine σ) : Prop where
  idle : m.control.running = false
  free : m.control.stepMode = false
  breakpoints : m.control.breakpoints = []
  attended : Attended m

/-- **Runs with one portion of keys after the other**: each portion is handed to the operator, and a run
follows. The reason and the machine are those of the last run. -/
inductive Sittings (env : Env σ) :
    Machine σ → List (List Key) → List (Leg σ) → StopReason → Machine σ → Prop
  | last {m keys reason after} (ran : Finishes env (m.typed keys) reason after) :
    Sittings env m [keys] [⟨m.typed keys, reason, after⟩] reason after
  | next {m keys first between portions legs reason after}
    (ran : Finishes env (m.typed keys) first between)
    (rest : Sittings env between portions legs reason after) :
    Sittings env m (keys :: portions) (⟨m.typed keys, first, between⟩ :: legs) reason after

/-- **What a run with a portion has come to.** The processor has stopped, or completed steps have led to an
input that found no key. The step was abandoned, and nothing was left of it. -/
inductive Sat (env : Env σ) (leg : Leg σ) : Prop
  | finished (finished : Over leg.finish.cpu leg.reason)
  | interrupted {count last} (aborted : leg.reason = .aborted)
    (walks : Walks env count (begun leg.start) last) (dry : Dry last)
    (given : step env last = .error .aborted last) (same : SameState leg.finish last)

theorem SameState.trans {one other : Machine σ} (first : SameState m one) (second : SameState one other) :
    SameState m other := by
  cases first
  cases second
  exact .intro trivial

theorem SameState.of_eq (same : n = { m with control := n.control, journal := n.journal }) :
    SameState m n := by
  rw [same]
  exact .intro trivial

section Runs

theorem Attended.typed (attended : Attended m) (keys : List Key) : Attended (m.typed keys) :=
  ⟨attended.patience, attended.unmarked, attended.untraced⟩

theorem Resting.typed (resting : Resting m) (keys : List Key) : Resting (m.typed keys) :=
  ⟨resting.idle, resting.free, resting.breakpoints, resting.attended.typed keys⟩

theorem Supplied.of_eq (attended : Attended m) (here : Unhindered m.control)
    (there : Unhindered n.control)
    (same : n = { m.typed rest with control := n.control, journal := n.journal }) :
    Supplied rest m n := by
  rw [same]
  exact .intro attended here there

theorem Supplied.self (supplied : Supplied rest m n) : Supplied [] m m :=
  .of_eq supplied.attended supplied.here supplied.here (by simp [Machine.typed])

/-- When a run begins, further keys may be there already. -/
theorem Resting.supplied (resting : Resting m) (keys rest : List Key) :
    Supplied rest (begun (m.typed keys)) (begun (m.typed (keys ++ rest))) := by
  have unhindered : Unhindered (begun m).control := ⟨resting.free, rfl, resting.breakpoints⟩
  have attended := resting.attended.typed keys
  exact .of_eq ⟨attended.patience, attended.unmarked, attended.untraced⟩ unhindered unhindered
    (by simp [Machine.typed, begun])

/-- Where a run has ended, another one can begin. -/
theorem Supplied.resting (supplied : Supplied rest m n) (reason : StopReason) :
    Resting (concluded reason m) :=
  ⟨rfl, supplied.here.free, supplied.here.breakpoints, supplied.attended.patience,
    supplied.attended.unmarked, supplied.attended.untraced⟩

/-- **The next portion is handed over**: the next run begins with fewer further keys. -/
theorem Supplied.hand {keys : List Key} (supplied : Supplied (keys ++ rest) m n) (reason : StopReason) :
    Supplied rest (begun ((concluded reason m).typed keys)) n := by
  have resting := (supplied.resting reason).typed keys
  have attended := resting.attended
  refine .of_eq ⟨attended.patience, attended.unmarked, attended.untraced⟩
    ⟨resting.free, rfl, resting.breakpoints⟩ supplied.there ?_
  cases supplied
  simp [Machine.typed, begun, concluded]

variable (own : env.Private)
include own

/-- **How a run ends**: its processor has stopped, or it is at an input without a key. -/
theorem Reaches.ends {reason : StopReason} {ended : Machine σ} (reaches : Reaches env m reason ended)
    (supplied : Supplied [] m m) :
    (Over ended.cpu reason ∨ reason = .aborted ∧ Dry ended) ∧ Supplied [] ended ended := by
  obtain ⟨finished, other, -, supplied⟩ | ⟨aborted, dry, now, supplied, -⟩ :=
    reaches.compare own supplied
  · exact ⟨.inl finished, supplied.self⟩
  · exact ⟨.inr ⟨aborted, dry⟩, supplied.self⟩

/-- A run is done when its rounds are. -/
theorem finishes_iff (resting : Resting m) {reason : StopReason} {after : Machine σ} :
    Finishes env m reason after ↔ ∃ ended, Reaches env (begun m) reason ended ∧
      after = concluded reason ended := by
  -- a machine is supplied beside itself, with no further keys
  have supplied : Supplied [] (begun m) (begun m) := by
    have empty := resting.supplied [] []
    rwa [List.append_nil, typed_nil] at empty
  constructor
  · rintro ⟨patience, ran⟩
    obtain ⟨count, -, ended, loop, concludes⟩ := (run_done_iff resting.idle).1 ran
    have reaches := (reaches_iff_loop own 0 supplied).2 ⟨count, loop⟩
    -- no stop was requested, so that the end of the run is only noted
    have calm := (reaches.ends own supplied).2.here.calm
    rw [conclude_eq reason calm] at concludes
    exact ⟨ended, reaches, (EStateM.Result.ok.inj concludes).2.symm⟩
  · rintro ⟨ended, reaches, rfl⟩
    obtain ⟨count, loop⟩ := (reaches_iff_loop own 0 supplied).1 reaches
    have calm := (reaches.ends own supplied).2.here.calm
    exact ⟨count, (run_done_iff resting.idle).2 ⟨count, Nat.le_refl _, ended, loop, conclude_eq _ calm⟩⟩

/-! ### A processor that has stopped -/

theorem finishes_over_iff {cause reason : StopReason} {keys : List Key} {after : Machine σ}
    (finished : Over m.cpu cause) (resting : Resting m) :
    Finishes env (m.typed keys) reason after ↔
      cause = reason ∧ after = concluded cause (begun (m.typed keys)) := by
  have unhindered : Unhindered (begun (m.typed keys)).control :=
    ⟨resting.free, rfl, resting.breakpoints⟩
  -- the processor is at its end already, so that the first round is the last one
  have last : ∀ steps, turn env none steps (begun (m.typed keys)) =
      .ok (.finish cause) (begun (m.typed keys)) := by
    intro steps
    have mode : (begun (m.typed keys)).cpu.mode = m.cpu.mode := rfl
    rw [turn_of_unhindered env unhindered, mode]
    cases finished with
    | halt halted => rw [halted]
    | fault faulted => rw [faulted]
  rw [finishes_iff own (resting.typed keys)]
  constructor
  · rintro ⟨ended, reaches, rfl⟩
    obtain ⟨rfl, rfl⟩ := (reaches_finish_iff last).1 reaches
    exact ⟨rfl, rfl⟩
  · rintro ⟨rfl, rfl⟩
    exact ⟨_, .finish last, rfl⟩

omit own in
/-- The keys that were not used before are still there. -/
theorem sameState_typed (cause : StopReason) (keys rest : List Key) :
    SameState (m.typed (keys ++ rest)) ((concluded cause (begun (m.typed keys))).typed rest) :=
  .of_eq (by simp [Machine.typed, begun, concluded])

/-- With a processor that has stopped, every portion is handed over, and nothing else happens. -/
theorem exists_sittings_over {cause : StopReason} (finished : Over m.cpu cause) (resting : Resting m)
    (keys : List Key) (portions : List (List Key)) :
    ∃ legs after, Sittings env m (keys :: portions) legs cause after ∧
      SameState (m.typed (keys :: portions).flatten) after := by
  induction portions generalizing m keys with
  | nil =>
    refine ⟨_, _, .last ((finishes_over_iff own finished resting).2 ⟨rfl, rfl⟩), ?_⟩
    exact .of_eq (by simp [Machine.typed, begun, concluded])
  | cons next portions ih =>
    have behind := ((resting.supplied keys []).resting cause)
    obtain ⟨legs, after, rest, same⟩ :=
      ih (m := concluded cause (begun (m.typed keys))) finished behind next
    refine ⟨_, after, .next ((finishes_over_iff own finished resting).2 ⟨rfl, rfl⟩) rest, ?_⟩
    exact (sameState_typed cause keys _).trans same

/-- Then the reason of the last run is always the same. -/
theorem Sittings.of_over {portions : List (List Key)} {legs : List (Leg σ)} {reason cause : StopReason}
    {after : Machine σ} (sittings : Sittings env m portions legs reason after)
    (finished : Over m.cpu cause) (resting : Resting m) :
    cause = reason ∧ SameState (m.typed portions.flatten) after := by
  induction sittings with
  | last ran =>
    obtain ⟨rfl, rfl⟩ := (finishes_over_iff own finished resting).1 ran
    exact ⟨rfl, .of_eq (by simp [Machine.typed, begun, concluded])⟩
  | @next m keys first between portions legs reason after ran rest ih =>
    obtain ⟨rfl, rfl⟩ := (finishes_over_iff own finished resting).1 ran
    have behind := ((resting.supplied keys []).resting cause)
    obtain ⟨rfl, same⟩ := ih finished behind
    exact ⟨rfl, (sameState_typed cause keys _).trans same⟩

/-! ### From portion to portion -/

omit own in
theorem Reaches.unique {reason cause : StopReason} {ended stopped : Machine σ}
    (reaches : Reaches env m reason ended) (other : Reaches env m cause stopped) :
    reason = cause ∧ ended = stopped := by
  induction reaches with
  | finish last => exact (reaches_finish_iff last).1 other
  | next first rest ih => exact ih ((reaches_next_iff first).1 other)

omit own in
/-- Without further keys, both machines are at an input without a key. -/
theorem Supplied.reaches_of_dry (supplied : Supplied [] m n) (dry : Dry m) :
    Reaches env n .aborted n := by
  have same : n = { m with control := n.control, journal := n.journal } := by
    cases supplied
    simp [Machine.typed]
  -- the second machine differs in control panel and journal only, so it runs dry as well
  have attended : Attended n := by
    rw [same]
    exact ⟨supplied.attended.patience, supplied.attended.unmarked, supplied.attended.untraced⟩
  have dryN : Dry n := by
    rw [same]
    exact ⟨⟨dry.nothing, dry.used⟩, dry.ready, dry.fetches, dry.port⟩
  refine .finish fun steps => ?_
  rw [turn_of_unhindered env supplied.there, dryN.ready]
  refine (settleStep_error (step_of_dry attended dryN)).trans ?_
  simp [settled, supplied.there.calm]

omit own in
/-- Runs that end beside each other leave the same state. -/
theorem Supplied.sameState (supplied : Supplied rest m n) (reason : StopReason) :
    SameState n ((concluded reason m).typed rest) := by
  cases supplied
  exact .of_eq (by simp [Machine.typed, concluded])

omit own in
theorem Supplied.sameState_concluded (supplied : Supplied [] m n) (reason : StopReason) :
    SameState n (concluded reason m) := by
  have same := supplied.sameState reason
  rwa [typed_nil] at same

/-- **The run with all keys is followed by runs with portions.** -/
theorem exists_sittings {reason : StopReason} {ended : Machine σ} (resting : Resting m) (keys : List Key)
    (portions : List (List Key)) (supplied : Supplied portions.flatten (begun (m.typed keys)) n)
    (reaches : Reaches env n reason ended) :
    ∃ legs after, Sittings env m (keys :: portions) legs reason after ∧ SameState ended after := by
  -- by induction on the portions that are still to come
  induction portions generalizing m n keys with
  | nil =>
    obtain ⟨cause, stopped, fewer⟩ := reaches.terminates own supplied
    have ran := (finishes_iff own (resting.typed keys)).2 ⟨stopped, fewer, rfl⟩
    obtain ⟨-, other, all, supplied⟩ | ⟨rfl, dry, now, supplied, same⟩ := fewer.compare own supplied
    -- the last portion: whatever is reached with it, the whole run reaches
    · obtain ⟨rfl, rfl⟩ := reaches.unique all
      exact ⟨_, _, .last ran, supplied.sameState_concluded _⟩
    · obtain ⟨rfl, rfl⟩ := reaches.unique ((same _ _).2 (supplied.reaches_of_dry dry))
      exact ⟨_, _, .last ran, supplied.sameState_concluded _⟩
  | cons next portions ih =>
    obtain ⟨cause, stopped, fewer⟩ := reaches.terminates own supplied
    have ran := (finishes_iff own (resting.typed keys)).2 ⟨stopped, fewer, rfl⟩
    obtain ⟨finished, other, all, supplied⟩ | ⟨rfl, dry, now, supplied, same⟩ :=
      fewer.compare own supplied
    -- the run was over before its keys were, and stays so through the other portions
    · obtain ⟨rfl, rfl⟩ := reaches.unique all
      obtain ⟨legs, after, rest, same⟩ :=
        exists_sittings_over own (m := concluded reason stopped) finished (supplied.resting reason)
          next portions
      exact ⟨_, after, .next ran rest, (supplied.sameState _).trans same⟩
    -- the run was aborted for want of a key, and goes on with the next portion
    · obtain ⟨legs, after, rest, same⟩ :=
        ih (supplied.resting .aborted) next (supplied.hand .aborted) ((same _ _).1 reaches)
      exact ⟨_, after, .next ran rest, same⟩

/-- **Runs with portions are followed by the run with all keys.** -/
theorem Sittings.exists_reaches {portions : List (List Key)} {legs : List (Leg σ)} {reason : StopReason}
    {after : Machine σ} (sittings : Sittings env m portions legs reason after) (resting : Resting m)
    (supplied : Supplied portions.tail.flatten (begun (m.typed (portions.headD []))) n) :
    ∃ ended, Reaches env n reason ended ∧ SameState ended after := by
  -- the other way, by induction on the sittings
  induction sittings generalizing n with
  | @last m keys reason after ran =>
    obtain ⟨stopped, fewer, rfl⟩ := (finishes_iff own (resting.typed keys)).1 ran
    obtain ⟨-, other, all, supplied⟩ | ⟨rfl, dry, now, supplied, same⟩ := fewer.compare own supplied
    · exact ⟨other, all, supplied.sameState_concluded _⟩
    · exact ⟨now, (same _ _).2 (supplied.reaches_of_dry dry), supplied.sameState_concluded _⟩
  | @next m keys first between portions legs reason after ran rest ih =>
    obtain ⟨stopped, fewer, rfl⟩ := (finishes_iff own (resting.typed keys)).1 ran
    -- the keys of the next portion and of all later ones are the keys that are left
    have whole : portions.headD [] ++ portions.tail.flatten = portions.flatten := by
      cases portions <;> rfl
    -- a sitting that has ended for good ends the whole run; an aborted one is where the whole run passes
    obtain ⟨finished, other, all, supplied⟩ | ⟨rfl, dry, now, supplied, same⟩ :=
      fewer.compare own supplied
    · obtain ⟨rfl, same⟩ := rest.of_over own finished (supplied.resting first)
      exact ⟨other, all, (supplied.sameState _).trans same⟩
    · change Supplied portions.flatten stopped now at supplied
      rw [← whole] at supplied
      obtain ⟨ended, reaches, same'⟩ := ih (supplied.resting .aborted) (supplied.hand .aborted)
      exact ⟨ended, (same _ _).2 reaches, same'⟩

/-! ### Each run -/

/-- Completed steps lead to where a read is abandoned. -/
theorem Reaches.exists_walks {reason : StopReason} {ended : Machine σ} (reaches : Reaches env m reason ended)
    (supplied : Supplied [] m m) (aborted : reason = .aborted) : ∃ count, Walks env count m ended := by
  -- rounds that are followed by another have completed an instruction
  induction reaches with
  | finish last =>
    cases supplied.round own with
    | dry dry given =>
      cases (given 0).symm.trans (last 0)
      exact ⟨0, rfl⟩
    | finished finished first second supplied =>
      cases (first 0).symm.trans (last 0)
      -- a run that is over was not aborted
      subst aborted
      cases finished
    | next first second supplied => cases (first 0).symm.trans (last 0)
  | next first rest ih =>
    have stepped := ((turn_next_iff supplied.here.free).1 (first 0)).2
    cases supplied.round own with
    | dry dry given => cases (given 0).symm.trans (first 0)
    | finished finished finish second supplied => cases (finish 0).symm.trans (first 0)
    | next first' second supplied =>
      cases (first' 0).symm.trans (first 0)
      obtain ⟨count, walks⟩ := ih supplied.self aborted
      exact ⟨count + 1, _, stepped, walks⟩

theorem sat_of_finishes (resting : Resting m) {reason : StopReason} {after : Machine σ}
    (ran : Finishes env m reason after) : Sat env ⟨m, reason, after⟩ := by
  obtain ⟨ended, reaches, rfl⟩ := (finishes_iff own resting).1 ran
  have supplied := (resting.supplied [] []).self
  rw [typed_nil] at supplied
  obtain ⟨finished | ⟨rfl, dry⟩, last⟩ := reaches.ends own supplied
  · exact .finished finished
  · obtain ⟨count, walks⟩ := reaches.exists_walks own supplied rfl
    exact .interrupted rfl walks dry (step_of_dry last.attended dry) (.of_eq rfl)

theorem Sittings.sat {portions : List (List Key)} {legs : List (Leg σ)} {reason : StopReason}
    {after : Machine σ} (sittings : Sittings env m portions legs reason after) (resting : Resting m) :
    ∀ leg ∈ legs, Sat env leg := by
  induction sittings with
  | last ran =>
    intro leg one
    obtain rfl := List.mem_singleton.1 one
    exact sat_of_finishes own (resting.typed _) ran
  | next ran rest ih =>
    intro leg one
    obtain rfl | later := List.mem_cons.1 one
    · exact sat_of_finishes own (resting.typed _) ran
    -- the next sitting begins with the machine that the first one has left at rest
    · obtain ⟨ended, reaches, rfl⟩ := (finishes_iff own (resting.typed _)).1 ran
      have last := (reaches.ends own (resting.supplied _ []).self).2
      exact ih (last.resting _) leg later

/-! ### All runs -/

/-- **It makes no difference in which portions the keys come.** When one run with all keys is done, so are
the runs with one portion after the other, and when these are done, so is the one run. The reason of the
last of them is the same, and the machine is the same but for control panel and journal. Each of them
leaves a processor that has stopped, or it ends at an input that finds no key, and leaves nothing of that. -/
theorem run_portions (resting : Resting m) {portions : List (List Key)} (nonempty : portions ≠ []) :
    (∀ reason whole, Finishes env (m.typed portions.flatten) reason whole →
      ∃ legs after, Sittings env m portions legs reason after ∧ SameState whole after) ∧
    ∀ reason legs after, Sittings env m portions legs reason after →
      (∃ whole, Finishes env (m.typed portions.flatten) reason whole ∧ SameState whole after) ∧
        ∀ leg ∈ legs, Sat env leg := by
  obtain ⟨keys, rest, rfl⟩ := List.exists_cons_of_ne_nil nonempty
  -- the first sitting beside the whole run, which has the other keys as well
  have supplied : Supplied rest.flatten (begun (m.typed keys)) (begun (m.typed (keys :: rest).flatten)) :=
    resting.supplied keys rest.flatten
  constructor
  · intro reason whole ran
    obtain ⟨ended, reaches, rfl⟩ := (finishes_iff own (resting.typed _)).1 ran
    obtain ⟨legs, after, sittings, same⟩ := exists_sittings own resting keys rest supplied reaches
    exact ⟨legs, after, sittings, SameState.trans (.of_eq rfl) same⟩
  · intro reason legs after sittings
    obtain ⟨ended, reaches, same⟩ := sittings.exists_reaches own resting supplied
    refine ⟨⟨concluded reason ended, ?_, SameState.trans (.of_eq rfl) same⟩, sittings.sat own resting⟩
    exact (finishes_iff own (resting.typed _)).2 ⟨ended, reaches, rfl⟩

end Runs

theorem private_silent : (silent : Env σ).Private where
  notify := fun _ _ => ⟨fun notes => (.ok (), notes), fun _ => rfl⟩
  answer := fun _ _ => ⟨fun notes => (.ok (0 : Int), notes), fun _ => rfl⟩

/-- Reads two keys and halts. -/
def readingTwo : Machine Unit :=
  { memory := beginning [Instr.input.opcode, keyboardPort, Instr.input.opcode, keyboardPort,
      Instr.halt.opcode]
    notes := () }

/-- Of two keys, the second one comes in a portion of its own, behind an empty one. -/
theorem run_portions_of_two_keys :
    ∃ whole, (silent : Env Unit).Private ∧ Resting readingTwo ∧ [[Key.code 97], [], [Key.code 98]] ≠ [] ∧
      Finishes silent (readingTwo.typed [[Key.code 97], [], [Key.code 98]].flatten) .halt whole ∧
      ∃ legs after, Sittings silent readingTwo [[Key.code 97], [], [Key.code 98]] legs .halt after ∧
        SameState whole after ∧ ∀ leg ∈ legs, Sat silent leg := by
  have resting : Resting readingTwo := ⟨rfl, rfl, rfl, rfl, nofun, rfl⟩
  have nonempty : [[Key.code 97], [], [Key.code 98]] ≠ [] := nofun
  obtain ⟨whole, ran, -⟩ := exists_of_comesTo silent 10 none
    (readingTwo.typed [[Key.code 97], [], [Key.code 98]].flatten) (.done .halt) (fun _ => true)
    (by decide +kernel)
  obtain ⟨apart, together⟩ := run_portions private_silent resting nonempty
  obtain ⟨legs, after, sittings, same⟩ := apart .halt whole ⟨10, ran⟩
  exact ⟨whole, private_silent, resting, nonempty, ⟨10, ran⟩, legs, after, sittings, same,
    (together .halt legs after sittings).2⟩

end EightBit.Machine
