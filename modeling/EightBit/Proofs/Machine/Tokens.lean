import EightBit.Proofs.Machine.History
import EightBit.Proofs.Machine.Keeping
import EightBit.Proofs.Machine.Split

/-!
# Step Tokens

In step mode an instruction is attempted when a token is there for it. Tokens are granted by requests, which
may come from anywhere at any time, while the loop of a run goes on and while stops are requested. What follows
holds for every order of requests, stops and operations of the loop, as long as the loop stays in step mode.

Of an iteration of the loop, the conditions are one operation, each look at the tokens is one, and the
instruction is one, unless it waits for a key: then it is tried again later, and anything can happen meanwhile.
An iteration in which nobody requests a stop once its token is taken is unbroken. A loop that is left for a
stop is left without a token then, because the stop was found before one was taken.

## Main Definitions

- `Env.Sparing`: observers that take no tokens.
- `Place`, `Desk`, `Event`, `Step`: a machine with the loop of its run, and the operations one after the other.
- `Moves`: all that an operation can do to the tokens and the loop.
- `Iteration`, `Unbroken`: what ends a loop, from its conditions on, and that no stop falls into it.
- `Conserved`: the rules of tokens.

## Main Statements

- `Step.moves`: operations do nothing else.
- `Run.tokens`, `Run.spent`: tokens are neither lost nor used twice.
- `Step.calm`, `Run.calm`: a loop is stopped only if somebody requests it.
- `run_conserved`: every order of operations keeps the rules.
- `run_turn`, `run_retry`: the rounds of a run consist of these operations.
-/

namespace EightBit

namespace Machine

variable {σ : Type}

/-! ## The tokens of a machine -/

/-- There are so many tokens now. -/
def withTokens (m : Machine σ) (tokens : Nat) : Machine σ :=
  { m with control := { m.control with tokens } }

/-- A count is related to the number of tokens. -/
def Counted (R : Nat → Nat → Prop) (count : Nat) (m : Machine σ) : Prop :=
  R count m.control.tokens

theorem aloof_counted (R : Nat → Nat → Prop) (count : Nat) :
    Aloof (Counted R count : Machine σ → Prop) where
  keeps := fun _ _ _ _ _ _ counted => counted

/-- A request to stop leaves tokens and step mode as they are. -/
theorem control_of_requestStop {m after : Machine σ} (ran : requestStop m = .ok () after) :
    after.control = { m.control with stopRequested := after.control.stopRequested } := by
  change (if m.control.running then _ else _ : Action σ Unit) m = _ at ran
  split at ran
  · cases ran
    rfl
  · cases ran
    rfl

theorem exists_requestStop (m : Machine σ) : ∃ after, requestStop m = .ok () after := by
  change ∃ after, (if m.control.running then _ else _ : Action σ Unit) m = _
  split
  · exact ⟨_, rfl⟩
  · exact ⟨_, rfl⟩

/-- **A look at the tokens** in step mode: there are none, so that it has to be repeated, or a stop was
requested, or one of them is taken. -/
theorem takeToken_cases {m : Machine σ} (stays : m.control.stepMode = true) :
    (m.control.tokens = 0 ∧ takeToken m = .ok none m) ∨
    (m.control.stopRequested = true ∧ takeToken m = .ok (some false) m) ∨
    (∃ tokens, m.control.tokens = tokens + 1 ∧ m.control.stopRequested = false ∧
      takeToken m = .ok (some true) (m.withTokens tokens)) := by
  rw [takeToken, get_bind]
  split
  -- the conditions of the wait are looked at in its own order
  · next lacks =>
    simp only [lacksToken, Bool.and_eq_true, beq_iff_eq] at lacks
    exact .inl ⟨lacks.1.2, rfl⟩
  next enough =>
  split
  · next stopped => exact .inr (.inl ⟨stopped, rfl⟩)
  · next calm =>
    -- neither is a stop requested nor is there none, so that one can be taken
    have some : m.control.tokens ≠ 0 := by
      intro none
      simp [lacksToken, stays, none, calm] at enough
    obtain ⟨tokens, holds⟩ := Nat.exists_eq_succ_of_ne_zero some
    have taken : m.control.tokens - 1 = tokens := by rw [holds]; rfl
    exact .inr (.inr ⟨tokens, holds, Bool.eq_false_iff.2 calm, by rw [← taken]; rfl⟩)

/-- Without a stop, a token that is there is taken. -/
theorem takeToken_of_stocked {m : Machine σ} {tokens : Nat} (stays : m.control.stepMode = true)
    (calm : m.control.stopRequested = false) (holds : m.control.tokens = tokens + 1) :
    takeToken m = .ok (some true) (m.withTokens tokens) := by
  obtain ⟨none, -⟩ | ⟨stopped, -⟩ | ⟨_, same, -, looked⟩ := takeToken_cases stays
  · rw [none] at holds
    cases holds
  · rw [calm] at stopped
    cases stopped
  · obtain rfl := Nat.succ.inj (same.symm.trans holds)
    exact looked

/-! ## Attempts -/

/-- **What an attempt can come to**: the instruction is completed, faults, is aborted, or waits for a key. -/
inductive Attempted : Turn → Prop
  | completed : Attempted .next
  | faulted : Attempted (.finish .fault)
  | stopped : Attempted (.finish .stopped)
  | aborted : Attempted (.finish .aborted)
  | blocked {ip} : Attempted (.pause (.key ip))

/-- It is a stop that ends the loop only if one was requested. -/
theorem attempted_of_settleStep {ip : Int} {work : Action σ Unit} {m after : Machine σ} {turned : Turn}
    (ran : settleStep ip work m = .ok turned after) :
    Attempted turned ∧ (turned = .finish .stopped → after.control.stopRequested = true) := by
  -- what the step has come to decides; an abort is a stop if one was requested
  cases worked : work m with
  | ok done now =>
    rw [settleStep_ok worked] at ran
    cases ran
    exact ⟨.completed, nofun⟩
  | error failure now =>
    rw [settleStep_error worked] at ran
    cases failure with
    | fault fault =>
      cases ran
      exact ⟨.faulted, nofun⟩
    | aborted =>
      obtain ⟨rfl, rfl⟩ := EStateM.Result.ok.inj ran
      cases now.control.stopRequested
      · exact ⟨.aborted, nofun⟩
      · exact ⟨.stopped, fun _ => rfl⟩
    | waiting =>
      cases ran
      exact ⟨.blocked, nofun⟩
    | trap trap => cases ran
    | outOfBounds access => cases ran
    | refused refusal => cases ran

/-- **An attempt comes to something**, whatever has failed. -/
theorem exists_settled {work : Action σ Unit} {m : Machine σ} (ip : Int)
    (fails : ∀ {failure now}, work m = .error failure now →
      (∃ fault, failure = .fault fault) ∨ failure = .aborted ∨ failure = .waiting) :
    ∃ turned after, settleStep ip work m = .ok turned after := by
  cases worked : work m with
  | ok done now => exact ⟨_, _, settleStep_ok worked⟩
  | error failure now =>
    rw [settleStep_error worked]
    obtain ⟨fault, rfl⟩ | rfl | rfl := fails worked
    · exact ⟨_, _, rfl⟩
    · exact ⟨_, _, rfl⟩
    · exact ⟨_, _, rfl⟩

end Machine

/-! ## Observers -/

namespace Env

open Machine

variable {σ : Type} {env : Env σ} {R : Nat → Nat → Prop}

/-- Counts that are related to the number of tokens stay so, whatever observers and attached devices do. -/
structure Counts (env : Env σ) (R : Nat → Nat → Prop) : Prop where
  notify : ∀ count hook notice, Keeps (Counted R count) (env.notify hook notice)
  answer : ∀ count hook port, Keeps (Counted R count) (env.answer hook port)

/-- **Observers and attached devices may request steps.** They do not take tokens: there are as many as before,
or more. -/
def Sparing (env : Env σ) : Prop :=
  env.Counts (· ≤ ·)

/-- Observers and attached devices leave the tokens as they are. -/
def Reticent (env : Env σ) : Prop :=
  env.Counts (· = ·)

theorem Counts.step (counts : env.Counts R) (count : Nat) : Keeps (Counted R count) (step env) :=
  have aloof := aloof_counted R count
  aloof.step (counts.notify count) (counts.answer count) <|
    aloof.keeps_store (counts.notify count) (fun _ _ counted => counted) fun _ _ _ counted => counted

end Env

/-! ## Operations one after the other -/

namespace Stepping

open Machine

variable {σ : Type} {env : Env σ}

/-- How far the loop of a run has got. -/
inductive Place
  /-- No run is going on. -/
  | idle
  /-- Before the conditions, behind so many instructions. -/
  | checking (limit : Option Nat) (steps : Nat)
  /-- The conditions are met, and a token is needed. -/
  | waiting (limit : Option Nat) (steps : Nat)
  /-- A token was taken, and the instruction is to be attempted. -/
  | granted (limit : Option Nat) (steps : Nat)
  /-- The instruction at an address waits for a key. -/
  | reading (limit : Option Nat) (steps : Nat) (ip : Int)
  /-- The loop was left for a reason, which is to be reported. -/
  | leaving (reason : StopReason)
  deriving DecidableEq, Repr

namespace Place

/-- Where the conditions lead to. -/
def checked (limit : Option Nat) (steps : Nat) : Option StopReason → Place
  | some reason => leaving reason
  | none => waiting limit steps

/-- Where a look at the tokens leads to. -/
def answered (limit : Option Nat) (steps : Nat) : Option Bool → Place
  | some true => granted limit steps
  | some false => leaving .stopped
  | none => waiting limit steps

/-- Where a round leads to. -/
def behind (limit : Option Nat) (steps : Nat) : Turn → Place
  | .next => checking limit (steps + 1)
  | .finish reason => leaving reason
  | .pause (.key ip) => reading limit steps ip
  | .pause .token => waiting limit steps

/-- The tokens that were taken for an instruction which is not finished. -/
def inHand : Place → Nat
  | granted .. | reading .. => 1
  | idle | checking .. | waiting .. | leaving _ => 0

end Place

/-- A machine and the loop of its run. The loop stays in step mode; when there is none, step mode can be
switched. -/
structure Desk (σ : Type) where
  machine : Machine σ
  place : Place := .idle
  stays : place ≠ .idle → machine.control.stepMode = true

/-- The tokens that were granted and not taken. -/
def Desk.tokens (desk : Desk σ) : Nat :=
  desk.machine.control.tokens

/-- What one operation has come to. -/
inductive Event
  /-- A step was requested. -/
  | request
  /-- A stop was requested. -/
  | stop
  /-- A run was started, and all tokens were dropped. -/
  | start
  /-- A run has begun without that. -/
  | run
  /-- The conditions have given a reason to leave the loop, or none. -/
  | look (verdict : Option StopReason)
  /-- A look at the tokens: one was taken, a stop was found, or neither. -/
  | wait (granted : Option Bool)
  /-- The instruction was attempted; meanwhile observers have requested so many steps, and perhaps a stop. -/
  | attempt (turned : Turn) (asked : Nat) (called : Bool)
  /-- The run was concluded. -/
  | conclude
  /-- Something has happened that concerns neither the tokens nor a stop. -/
  | elsewhere
  deriving DecidableEq, Repr

namespace Event

/-- The steps that were requested. -/
def requests : Event → Nat
  | request => 1
  | attempt _ asked _ => asked
  | start | run | stop | look _ | wait _ | conclude | elsewhere => 0

/-- The tokens that were taken. -/
def grants : Event → Nat
  | wait (some true) => 1
  | _ => 0

/-- The instructions that were completed, faulted or aborted. -/
def attempts : Event → Nat
  | attempt .next _ _ | attempt (.finish _) _ _ => 1
  | _ => 0

/-- The looks at the conditions. -/
def looks : Event → Nat
  | look _ => 1
  | _ => 0

/-- The looks that have given no reason to leave the loop. -/
def clears : Event → Nat
  | look none => 1
  | _ => 0

theorem clears_le_looks (event : Event) : event.clears ≤ event.looks := by
  cases event with
  | look verdict =>
    cases verdict with
    | none => exact Nat.le_refl 1
    | some reason => exact Nat.zero_le 1
  | _ => exact Nat.le_refl 0

theorem eq_of_grants {event : Event} (takes : event.grants ≠ 0) : event = .wait (some true) := by
  unfold grants at takes
  split at takes
  · rfl
  · exact absurd rfl takes

/-- A stop was requested. -/
def stops : Event → Bool
  | stop => true
  | attempt _ _ called => called
  | _ => false

/-- The event is not one of the loop, or the instruction still waits for a key. -/
def IsAside : Event → Prop
  | request | stop | elsewhere | attempt (.pause _) _ _ => True
  | _ => False

end Event

/-- **One operation** of the loop or of anybody else. Observers change the number of tokens by requests only, so
what there is more of them behind an attempt was requested by observers. So is a stop that is requested there
and was not before. -/
inductive Step (env : Env σ) : Desk σ → Event → Desk σ → Prop
  | request {m after : Machine σ} {place stays stays'} (ran : requestStep m = .ok () after) :
      Step env ⟨m, place, stays⟩ .request ⟨after, place, stays'⟩
  | stop {m after : Machine σ} {place stays stays'} (ran : requestStop m = .ok () after) :
      Step env ⟨m, place, stays⟩ .stop ⟨after, place, stays'⟩
  | start {m : Machine σ} {limit stays stays'} :
      Step env ⟨m, .idle, stays⟩ .start ⟨begun (m.withTokens 0), .checking limit 0, stays'⟩
  | run {m : Machine σ} {limit stays stays'} :
      Step env ⟨m, .idle, stays⟩ .run ⟨begun m, .checking limit 0, stays'⟩
  | look {m : Machine σ} {limit steps verdict stays stays'} (met : checks? m limit steps = verdict) :
      Step env ⟨m, .checking limit steps, stays⟩ (.look verdict)
        ⟨m, .checked limit steps verdict, stays'⟩
  | wait {m after : Machine σ} {limit steps granted stays stays'}
      (ran : takeToken m = .ok granted after) :
      Step env ⟨m, .waiting limit steps, stays⟩ (.wait granted)
        ⟨after, .answered limit steps granted, stays'⟩
  | attempt {m after : Machine σ} {limit steps turned asked called stays stays'}
      (ran : settleStep m.cpu.regs.ip (step env) m = .ok turned after)
      (asks : after.control.tokens - m.control.tokens = asked)
      (calls : (!m.control.stopRequested && after.control.stopRequested) = called) :
      Step env ⟨m, .granted limit steps, stays⟩ (.attempt turned asked called)
        ⟨after, .behind limit steps turned, stays'⟩
  | again {m after : Machine σ} {limit steps ip turned asked called stays stays'}
      (ran : retry env (.key ip) m = .ok turned after)
      (asks : after.control.tokens - m.control.tokens = asked)
      (calls : (!m.control.stopRequested && after.control.stopRequested) = called) :
      Step env ⟨m, .reading limit steps ip, stays⟩ (.attempt turned asked called)
        ⟨after, .behind limit steps turned, stays'⟩
  | conclude {m after : Machine σ} {reason stays stays'} (ran : conclude reason m = .ok () after) :
      Step env ⟨m, .leaving reason, stays⟩ .conclude ⟨after, .idle, stays'⟩
  | elsewhere {m after : Machine σ} {place stays stays'}
      (same : after.control.tokens = m.control.tokens)
      (still : after.control.stopRequested = m.control.stopRequested) :
      Step env ⟨m, place, stays⟩ .elsewhere ⟨after, place, stays'⟩

/-- **All that an operation can do** to the tokens and the loop. -/
inductive Moves : Nat → Place → Event → Nat → Place → Prop
  | request {tokens place} : Moves tokens place .request (tokens + 1) place
  | stop {tokens place} : Moves tokens place .stop tokens place
  | start {tokens limit} : Moves tokens .idle .start 0 (.checking limit 0)
  | run {tokens limit} : Moves tokens .idle .run tokens (.checking limit 0)
  | clear {tokens limit steps} :
      Moves tokens (.checking limit steps) (.look none) tokens (.waiting limit steps)
  | met {tokens limit steps reason} :
      Moves tokens (.checking limit steps) (.look (some reason)) tokens (.leaving reason)
  | lacking {limit steps} : Moves 0 (.waiting limit steps) (.wait none) 0 (.waiting limit steps)
  | stopped {tokens limit steps} :
      Moves tokens (.waiting limit steps) (.wait (some false)) tokens (.leaving .stopped)
  | taken {tokens limit steps} :
      Moves (tokens + 1) (.waiting limit steps) (.wait (some true)) tokens (.granted limit steps)
  | attempt {tokens place limit steps turned asked called} (inHand : place.inHand = 1)
      (attempted : Attempted turned) :
      Moves tokens place (.attempt turned asked called) (tokens + asked) (.behind limit steps turned)
  | conclude {tokens reason} : Moves tokens (.leaving reason) .conclude tokens .idle
  | elsewhere {tokens place} : Moves tokens place .elsewhere tokens place

/-- What an instruction does to the number of tokens is what its attempt does. -/
theorem counted_of_settleStep {R : Nat → Nat → Prop} (refl : ∀ count, R count count) {ip : Int}
    {work : Action σ Unit} {m after : Machine σ} {turned : Turn}
    (works : Keeps (Counted R m.control.tokens) work) (ran : settleStep ip work m = .ok turned after) :
    R m.control.tokens after.control.tokens := by
  have kept := (works.settleStep (aloof_counted R _).toCentral.record ip).ensures m (refl _)
  rwa [ran] at kept

/-- **Operations do nothing else.** -/
theorem Step.moves (sparing : env.Sparing) {desk next : Desk σ} {event : Event}
    (step : Step env desk event next) : Moves desk.tokens desk.place event next.tokens next.place := by
  -- tokens change in three ways: by requests, by a look that takes one, and with a new start
  cases step with
  | request ran =>
    cases ran
    exact .request
  | @stop m after place stays stays' ran =>
    show Moves m.control.tokens _ _ after.control.tokens _
    rw [control_of_requestStop ran]
    exact .stop
  | start => exact .start
  | run => exact .run
  | @look m limit steps verdict stays stays' met =>
    cases verdict with
    | some reason => exact .met
    | none => exact .clear
  | @wait m after limit steps granted stays stays' ran =>
    show Moves m.control.tokens _ _ after.control.tokens _
    -- the look takes one, or it takes none because there is none or because of a stop
    obtain ⟨none, looked⟩ | ⟨stopped, looked⟩ | ⟨tokens, holds, -, looked⟩ :=
      takeToken_cases (stays nofun)
    · rw [looked] at ran
      cases ran
      rw [none]
      exact .lacking
    · rw [looked] at ran
      cases ran
      exact .stopped
    · rw [looked] at ran
      cases ran
      rw [holds]
      exact .taken
  | @attempt m after limit steps turned asked called stays stays' ran asks _ =>
    have kept := counted_of_settleStep Nat.le_refl (sparing.step _) ran
    -- whatever observers request during the attempt is counted with the attempt
    have more : after.control.tokens = m.control.tokens + asked := by omega
    show Moves m.control.tokens _ _ after.control.tokens _
    rw [more]
    exact .attempt rfl (attempted_of_settleStep ran).1
  | @again m after limit steps ip turned asked called stays stays' ran asks _ =>
    have kept := counted_of_settleStep Nat.le_refl ((aloof_counted _ _).receiveKey ip) ran
    have more : after.control.tokens = m.control.tokens + asked := by omega
    show Moves m.control.tokens _ _ after.control.tokens _
    rw [more]
    exact .attempt rfl (attempted_of_settleStep ran).1
  | @conclude m after reason stays stays' ran =>
    show Moves m.control.tokens _ _ after.control.tokens _
    rw [(same_of_conclude ran).2]
    exact .conclude
  | @elsewhere m after place stays stays' same _ =>
    show Moves m.control.tokens _ _ after.control.tokens _
    rw [same]
    exact .elsewhere

/-- **Instructions request nothing.** What is requested during an attempt is requested by observers. -/
theorem Step.asked_eq_zero (reticent : env.Reticent) {desk next : Desk σ} {turned : Turn} {asked : Nat}
    {called : Bool} (step : Step env desk (.attempt turned asked called) next) : asked = 0 := by
  cases step with
  | attempt ran asks =>
    have same := counted_of_settleStep Eq.refl (reticent.step _) ran
    omega
  | again ran asks =>
    have same := counted_of_settleStep Eq.refl ((aloof_counted _ _).receiveKey _) ran
    omega

/-! ## Orders of operations -/

/-- Operations one after the other, in any order. -/
abbrev Run (env : Env σ) : Desk σ → List Event → Desk σ → Prop :=
  History (Step env)

section Run

variable {desk last : Desk σ} {events : List Event}

/-! ### Tokens -/

/-- Tokens come from requests, and go into grants. -/
theorem Moves.tokens {tokens after : Nat} {place next : Place} {event : Event}
    (moves : Moves tokens place event after next) (goes : event ≠ .start) :
    after + event.grants = tokens + event.requests := by
  cases moves with
  | start => exact absurd rfl goes
  | _ => rfl

/-- Grants go into attempts. -/
theorem Moves.spent {tokens after : Nat} {place next : Place} {event : Event}
    (moves : Moves tokens place event after next) :
    next.inHand + event.attempts = place.inHand + event.grants := by
  cases moves with
  | attempt inHand attempted =>
    rw [inHand]
    cases attempted <;> rfl
  | _ => rfl

/-- **Tokens are neither lost nor made**, as long as no run is started. -/
theorem Run.tokens (sparing : env.Sparing) (run : Run env desk events last) (goes : .start ∉ events) :
    last.tokens + total Event.grants events = desk.tokens + total Event.requests events :=
  run.balance fun among step => (step.moves sparing).tokens fun starts => goes (starts ▸ among)

/-- **A token that is taken is for one attempt.** -/
theorem Run.spent (sparing : env.Sparing) (run : Run env desk events last) :
    last.place.inHand + total Event.attempts events =
      desk.place.inHand + total Event.grants events :=
  run.balance fun _ step => (step.moves sparing).spent

/-! ### Attempts -/

/-- A token in hand was there already, or is the one that was taken. -/
theorem Moves.inHand {tokens after : Nat} {place next : Place} {event : Event}
    (moves : Moves tokens place event after next) (holds : next.inHand = 1) :
    (place.inHand = 1 ∧ event.IsAside) ∨ event = .wait (some true) := by
  cases moves with
  | request | stop | elsewhere => exact .inl ⟨holds, trivial⟩
  | taken => exact .inr rfl
  | attempt before attempted =>
    cases attempted with
    | blocked => exact .inl ⟨before, trivial⟩
    | completed | faulted | stopped | aborted => cases holds
  | start | run | clear | met | lacking | stopped | conclude => cases holds

/-- How many instructions can have been attempted behind so many looks at the conditions, of which so many have
given no reason to leave the loop. If there are as many instructions as looks when it is left, the last of
them has ended it, for one of its own reasons. -/
def Within (looks clears attempts : Nat) : Place → Prop
  | .idle | .checking .. => attempts ≤ clears ∧ clears ≤ looks
  | .waiting .. | .granted .. | .reading .. => attempts + 1 ≤ clears ∧ clears ≤ looks
  | .leaving reason => (attempts ≤ clears ∧ clears ≤ looks) ∧
      (attempts = looks → reason = .fault ∨ reason = .stopped ∨ reason = .aborted)

theorem within_of_inHand {looks clears attempts : Nat} {place : Place} (inHand : place.inHand = 1) :
    Within looks clears attempts place ↔ attempts + 1 ≤ clears ∧ clears ≤ looks := by
  cases place with
  | granted | reading => exact Iff.rfl
  | idle | checking | waiting | leaving => cases inHand

theorem Moves.within {tokens after looks clears attempts : Nat} {place next : Place} {event : Event}
    (moves : Moves tokens place event after next) (within : Within looks clears attempts place) :
    Within (looks + event.looks) (clears + event.clears) (attempts + event.attempts) next := by
  cases moves with
  | request | stop | start | run | elsewhere | lacking | taken => exact within
  -- an instruction of the iteration is still to come, which the look makes room for
  | clear => exact ⟨Nat.succ_le_succ within.1, Nat.succ_le_succ within.2⟩
  | met =>
    obtain ⟨few, before⟩ := within
    exact ⟨⟨few, Nat.le_succ_of_le before⟩, fun same : attempts = looks + 1 => by omega⟩
  | stopped =>
    obtain ⟨few, before⟩ := within
    exact ⟨⟨Nat.le_of_succ_le few, before⟩, fun same : attempts = looks => by omega⟩
  | conclude => exact within.1
  | attempt inHand attempted =>
    rw [within_of_inHand inHand] at within
    cases attempted with
    | completed => exact within
    | faulted => exact ⟨within, fun _ => .inl rfl⟩
    | stopped => exact ⟨within, fun _ => .inr (.inl rfl)⟩
    | aborted => exact ⟨within, fun _ => .inr (.inr rfl)⟩
    | blocked => exact within

theorem Run.within (sparing : env.Sparing) (run : Run env desk events last) {looks clears attempts : Nat}
    (within : Within looks clears attempts desk.place) :
    Within (looks + total Event.looks events) (clears + total Event.clears events)
      (attempts + total Event.attempts events) last.place := by
  induction run generalizing looks clears attempts with
  | nil desk => exact within
  | cons step _ ih =>
    rw [total_cons, total_cons, total_cons, ← Nat.add_assoc, ← Nat.add_assoc, ← Nat.add_assoc]
    exact ih ((step.moves sparing).within within)

/-! ### Stops -/

/-- No stop was requested, and none has ended the loop. -/
structure Desk.Calm (desk : Desk σ) : Prop where
  unasked : desk.machine.control.stopRequested = false
  inside : desk.place ≠ .leaving .stopped

theorem calm_of_settleStep {m after : Machine σ} {limit : Option Nat} {steps : Nat} {turned : Turn} {ip : Int}
    {work : Action σ Unit} (unasked : m.control.stopRequested = false)
    (ran : settleStep ip work m = .ok turned after)
    (calls : (!m.control.stopRequested && after.control.stopRequested) = false) {stays} :
    Desk.Calm ⟨after, .behind limit steps turned, stays⟩ := by
  have still : after.control.stopRequested = false := by simpa [unasked] using calls
  refine ⟨still, fun left => ?_⟩
  have finished : turned = .finish .stopped := by
    cases turned with
    | next => cases left
    | finish reason => rw [Place.leaving.inj left]
    | pause wait => cases wait <;> cases left
  have requested := (attempted_of_settleStep ran).2 finished
  rw [still] at requested
  cases requested

/-- **A loop is stopped only if somebody requests it.** -/
theorem Step.calm {next : Desk σ} {event : Event} (step : Step env desk event next)
    (quiet : event.stops = false) (calm : desk.Calm) : next.Calm := by
  have unasked := calm.unasked
  -- only a stop, or an attempt in which an observer calls for one, could leave a request behind
  cases step with
  | request ran =>
    cases ran
    exact ⟨unasked, calm.inside⟩
  | stop ran => cases quiet
  | start => exact ⟨rfl, nofun⟩
  | run => exact ⟨rfl, nofun⟩
  | @look m limit steps verdict stays stays' met =>
    refine ⟨unasked, fun left => ?_⟩
    cases verdict with
    | none => cases left
    -- the conditions have found a reason, and with no request that is not the stop
    | some reason =>
      obtain rfl := Place.leaving.inj left
      cases (checks?_eq_some_iff unasked).1 met
  | @wait m after limit steps granted stays stays' ran =>
    obtain ⟨-, looked⟩ | ⟨stopped, -⟩ | ⟨tokens, -, -, looked⟩ := takeToken_cases (stays nofun)
    · rw [looked] at ran
      cases ran
      exact ⟨unasked, nofun⟩
    · rw [unasked] at stopped
      cases stopped
    · rw [looked] at ran
      cases ran
      exact ⟨unasked, nofun⟩
  | attempt ran asks calls => exact calm_of_settleStep unasked ran (calls.trans quiet)
  | again ran asks calls => exact calm_of_settleStep unasked ran (calls.trans quiet)
  | @conclude m after reason stays stays' ran =>
    refine ⟨?_, nofun⟩
    rw [(same_of_conclude ran).2]
    exact unasked
  | elsewhere same still => exact ⟨still.trans unasked, calm.inside⟩

theorem Run.calm (run : Run env desk events last) (quiet : ∀ event ∈ events, event.stops = false)
    (calm : desk.Calm) : last.Calm :=
  run.keeps (fun among step calm => step.calm (quiet _ among) calm) calm

end Run

/-- **The last iteration of a loop**, with all that happens meanwhile: from the conditions, which are looked at
once, until the loop is left. -/
structure Iteration (env : Env σ) (top : Desk σ) (events : List Event) (out : Desk σ)
    (reason : StopReason) : Prop where
  run : Run env top events out
  begins : ∃ limit steps, top.place = .checking limit steps
  ends : out.place = .leaving reason
  once : total Event.looks events = 1
  goes : .start ∉ events

/-- **The iteration is not broken by a stop**: once a token is taken, nobody requests one any more. -/
def Unbroken (events : List Event) : Prop :=
  ∀ front back, events = front ++ .wait (some true) :: back → ∀ event ∈ back, event.stops = false

section Iteration

variable {top out : Desk σ} {events : List Event} {reason : StopReason}

/-- What can be counted in an iteration that ends the loop. -/
theorem Iteration.counts (sparing : env.Sparing) (iteration : Iteration env top events out reason) :
    total Event.attempts events = total Event.grants events ∧
      (total Event.attempts events ≤ total Event.clears events ∧ total Event.clears events ≤ 1) ∧
      (total Event.attempts events = 1 → reason = .fault ∨ reason = .stopped ∨ reason = .aborted) := by
  obtain ⟨limit, steps, begins⟩ := iteration.begins
  have spent := Run.spent sparing iteration.run
  -- looks and attempts can be counted from any top of the loop
  have within : Within 0 0 0 top.place := by
    rw [begins]
    exact ⟨Nat.le_refl 0, Nat.le_refl 0⟩
  have within := Run.within sparing iteration.run within
  rw [begins, iteration.ends] at spent
  rw [iteration.ends, iteration.once, Nat.zero_add, Nat.zero_add, Nat.zero_add] at within
  exact ⟨by simpa [Place.inHand] using spent, within⟩

/-- **An iteration that ends the loop** takes as many tokens as it attempts instructions. That is none or one,
and none if the reason is a condition which no instruction can bring about. -/
theorem Iteration.takes (sparing : env.Sparing) (iteration : Iteration env top events out reason) :
    out.tokens + total Event.attempts events = top.tokens + total Event.requests events ∧
      total Event.attempts events ≤ 1 ∧
      (total Event.attempts events = 1 → reason = .fault ∨ reason = .stopped ∨ reason = .aborted) := by
  obtain ⟨same, ⟨few, once⟩, reasons⟩ := iteration.counts sparing
  exact ⟨by rw [same, Run.tokens sparing iteration.run iteration.goes], Nat.le_trans few once, reasons⟩

/-- An iteration that has taken a token is not ended by a stop, unless it is broken by one. -/
theorem Iteration.reason_ne_stopped (iteration : Iteration env top events out reason)
    (unbroken : Unbroken events) (takes : .wait (some true) ∈ events) : reason ≠ .stopped := by
  -- at the moment when the token is taken no stop is requested, and from there on none is made
  obtain ⟨front, back, rfl⟩ := List.append_of_mem takes
  obtain ⟨middle, -, run⟩ := iteration.run.split
  cases run with
  | @cons _ next _ _ _ step rest =>
    -- had one been requested, the look would have been refused
    have calm : next.Calm := by
      cases step with
      | @wait m after limit steps granted stays stays' ran =>
        obtain ⟨-, looked⟩ | ⟨-, looked⟩ | ⟨tokens, -, unasked, looked⟩ := takeToken_cases (stays nofun)
        · rw [looked] at ran
          cases ran
        · rw [looked] at ran
          cases ran
        · rw [looked] at ran
          cases ran
          exact ⟨unasked, nofun⟩
    rintro rfl
    exact (Run.calm rest (unbroken front back rfl) calm).inside iteration.ends

/-- **An unbroken iteration that ends the loop takes no token**, unless its instruction faults or is aborted. -/
theorem Iteration.spares (sparing : env.Sparing) (iteration : Iteration env top events out reason)
    (unbroken : Unbroken events)
    (early : (reason ≠ .fault ∧ reason ≠ .aborted) ∨ ∃ found, .look (some found) ∈ events) :
    total Event.grants events = 0 := by
  obtain ⟨same, ⟨few, once⟩, reasons⟩ := iteration.counts sparing
  rw [← same]
  -- suppose that a token was taken: then the iteration has ended in its attempt
  by_contra attempted
  obtain ⟨noFault, notAborted⟩ | ⟨found, met⟩ := early
  -- after an attempt it can end with a fault, a stop or an abort, and none of them is left
  · obtain fault | stopped | aborted := reasons (by omega)
    · exact noFault fault
    · obtain ⟨event, among, takes⟩ := exists_of_total_ne_zero (same ▸ attempted)
      rw [Event.eq_of_grants takes] at among
      exact iteration.reason_ne_stopped unbroken among stopped
    · exact notAborted aborted
  -- a reason found by the conditions is found in front of the look, so no token is taken there
  · have fewer := total_lt_total Event.clears_le_looks met Nat.zero_lt_one
    have once := iteration.once
    omega

end Iteration

/-! ## The rules of tokens -/

/-- There are no tokens, and no run is going on. -/
structure Desk.New (desk : Desk σ) : Prop where
  tokens : desk.tokens = 0
  place : desk.place = .idle

/-- Observers request a step whenever they are told of something. -/
def urging : Env Unit :=
  ⟨fun _ _ => requestStep, fun _ _ => pure 0⟩

/-- The first instruction writes a port that is observed. -/
def signalling : Machine Unit :=
  { memory := beginning [Instr.output.opcode, lightsPort]
    observers := { writeTaps := [(lightsPort, 0)] }
    control := { stepMode := true }
    notes := () }

/-- In step mode, a step is requested and a run begins; then the token is taken. -/
theorem run_granted (env : Env σ) {m : Machine σ} (limit : Option Nat) (stays : m.control.stepMode = true)
    (clear : checks? (begun (m.withTokens (m.control.tokens + 1))) limit 0 = none) :
    Run env ⟨m, .idle, fun _ => stays⟩ [.request, .run]
        ⟨begun (m.withTokens (m.control.tokens + 1)), .checking limit 0, fun _ => stays⟩ ∧
      Run env ⟨begun (m.withTokens (m.control.tokens + 1)), .checking limit 0, fun _ => stays⟩
        [.look none, .wait (some true)] ⟨begun m, .granted limit 0, fun _ => stays⟩ := by
  let asked := m.withTokens (m.control.tokens + 1)
  have request : Step env ⟨m, .idle, fun _ => stays⟩ .request ⟨asked, .idle, fun _ => stays⟩ :=
    .request rfl
  have look : Step env ⟨begun asked, .checking limit 0, fun _ => stays⟩ (.look none)
      ⟨begun asked, .waiting limit 0, fun _ => stays⟩ := .look clear
  have wait : Step env ⟨begun asked, .waiting limit 0, fun _ => stays⟩ (.wait (some true))
      ⟨begun m, .granted limit 0, fun _ => stays⟩ := .wait (takeToken_of_stocked stays rfl rfl)
  exact ⟨.cons request (.cons .run (.nil _)), .cons look (.cons wait (.nil _))⟩

/-- The first instruction waits for a key. -/
def reading : Machine Unit :=
  { memory := beginning [Instr.input.opcode, keyboardPort]
    operator := { patience := .wait }
    control := { stepMode := true }
    notes := () }

/-- **An iteration that is broken by a stop can take a token.** The instruction has waited for a key, and the
stop has aborted it. -/
theorem exists_token_taken_by_stop :
    ∃ top out : Desk Unit, Desk.New ⟨reading, .idle, fun _ => rfl⟩ ∧
      Run urging ⟨reading, .idle, fun _ => rfl⟩ [.request, .run] top ∧
      Iteration urging top [.look none, .wait (some true), .attempt (.pause (.key 0)) 0 false, .stop,
        .attempt (.finish .stopped) 0 false] out .stopped ∧
      top.tokens = 1 ∧ out.tokens = 0 := by
  -- three actions one after the other, each computed from the machine that the last one has left
  obtain ⟨turned, blocked, waits, passed⟩ := exists_of_yields (settleStep 0 (Machine.step urging))
    (begun reading) (fun turned blocked => decide
      (turned = .pause (.key 0) ∧ blocked.control.tokens = 0 ∧ blocked.control.stepMode = true ∧
        blocked.control.stopRequested = false) &&
        yields requestStop blocked fun _ stopped => decide
          (stopped.control.stepMode = true ∧ stopped.control.stopRequested = true) &&
          yields (retry urging (.key 0)) stopped fun turned after => decide
            (turned = .finish .stopped ∧ after.control.tokens = 0 ∧ after.control.stepMode = true))
    (by decide +kernel)
  obtain ⟨blocks, passed⟩ := (Bool.and_eq_true ..).mp passed
  obtain ⟨⟨⟩, stopped, stops, passed⟩ := exists_of_yields _ _ _ passed
  obtain ⟨requests, passed⟩ := (Bool.and_eq_true ..).mp passed
  obtain ⟨turned', after, aborts, ends⟩ := exists_of_yields _ _ _ passed
  obtain ⟨rfl, none, stays, unasked⟩ := of_decide_eq_true blocks
  obtain ⟨stays', requested⟩ := of_decide_eq_true requests
  obtain ⟨rfl, empty, stays''⟩ := of_decide_eq_true ends
  -- and the same three as steps of the run
  have block : Step urging ⟨begun reading, .granted .none 0, fun _ => rfl⟩
      (.attempt (.pause (.key 0)) 0 false) ⟨blocked, .reading .none 0 0, fun _ => stays⟩ :=
    .attempt waits (by rw [none]; rfl) unasked
  have stop : Step urging ⟨blocked, .reading .none 0 0, fun _ => stays⟩ .stop
      ⟨stopped, .reading .none 0 0, fun _ => stays'⟩ := .stop stops
  have abort : Step urging ⟨stopped, .reading .none 0 0, fun _ => stays'⟩
      (.attempt (.finish .stopped) 0 false) ⟨after, .leaving .stopped, fun _ => stays''⟩ :=
    .again aborts (by rw [empty]; exact Nat.zero_sub _) (by rw [requested]; rfl)
  obtain ⟨begins, granted⟩ := run_granted urging .none (m := reading) rfl rfl
  have run := granted.append (.cons block (.cons stop (.cons abort (.nil _))))
  exact ⟨_, _, ⟨rfl, rfl⟩, begins, ⟨run, ⟨_, _, rfl⟩, rfl, rfl, by decide⟩, rfl, empty⟩

/-! ## Rounds of a run -/

section Rounds

variable (env : Env σ) {m : Machine σ} {limit : Option Nat} {steps : Nat}
  (stays : m.control.stepMode = true)
include stays

/-- What the operator does when there is no token are requests like any other, unless it is to leave step
mode. -/
theorem run_followPolicy {place : Place} (manual : m.operator.policy ≠ .resume) :
    ∃ now events, ∃ (stays' : now.control.stepMode = true), followPolicy m = .ok () now ∧
      Run env ⟨m, place, fun _ => stays⟩ events ⟨now, place, fun _ => stays'⟩ := by
  rw [followPolicy, get_bind]
  cases policy : m.operator.policy with
  | stop =>
    obtain ⟨now, stops⟩ := exists_requestStop m
    -- a stop does not touch step mode
    have stays' : now.control.stepMode = true := by
      rw [control_of_requestStop stops]
      exact stays
    exact ⟨now, [.stop], stays', stops, .cons (.stop stops) (.nil _)⟩
  | resume => exact absurd policy manual
  | step =>
    exact ⟨m.withTokens (m.control.tokens + 1), [.request], stays, rfl, .cons (.request rfl) (.nil _)⟩
  | wait => exact ⟨m, [], stays, rfl, .nil _⟩

/-- A look at the tokens comes to something. -/
theorem exists_wait :
    ∃ now granted, ∃ (stays' : now.control.stepMode = true), takeToken m = .ok granted now ∧
      Step env ⟨m, .waiting limit steps, fun _ => stays⟩ (.wait granted)
        ⟨now, .answered limit steps granted, fun _ => stays'⟩ := by
  obtain ⟨-, looked⟩ | ⟨-, looked⟩ | ⟨tokens, -, -, looked⟩ := takeToken_cases stays
  · exact ⟨m, _, stays, looked, .wait looked⟩
  · exact ⟨m, _, stays, looked, .wait looked⟩
  · exact ⟨m.withTokens tokens, _, stays, looked, .wait looked⟩

variable (manual : m.operator.policy ≠ .resume)
include manual

/-- The wait for a token consists of such looks, and what the operator does before. -/
theorem run_grantStep :
    ∃ now granted events, ∃ (stays' : now.control.stepMode = true), grantStep m = .ok granted now ∧
      Run env ⟨m, .waiting limit steps, fun _ => stays⟩ events
        ⟨now, .answered limit steps granted, fun _ => stays'⟩ := by
  rw [grantStep, get_bind, if_neg (by simp [stays]), get_bind]
  split
  · obtain ⟨between, events, stays', followed, run⟩ := run_followPolicy env stays manual
    obtain ⟨now, granted, stays'', looked, wait⟩ := exists_wait env stays'
    exact ⟨now, granted, _, stays'', (bind_of_ok followed).trans looked,
      run.append (.cons wait (.nil _))⟩
  · obtain ⟨now, granted, stays', looked, wait⟩ := exists_wait env stays
    exact ⟨now, granted, _, stays', looked, .cons wait (.nil _)⟩

/-- A round behind the conditions. -/
theorem run_takeTurn :
    ∃ turned after, takeTurn env m = .ok turned after ∧
      ∀ stays' : after.control.stepMode = true, ∃ events,
        Run env ⟨m, .waiting limit steps, fun _ => stays⟩ events
          ⟨after, .behind limit steps turned, fun _ => stays'⟩ := by
  obtain ⟨now, granted, events, stays', grants, run⟩ := run_grantStep env stays manual
  rw [takeTurn, bind_of_ok grants]
  -- no token, a stop, or a token and an attempt
  cases granted with
  | none => exact ⟨.pause .token, now, rfl, fun _ => ⟨events, run⟩⟩
  | some granted =>
    cases granted with
    | false => exact ⟨.finish .stopped, now, rfl, fun _ => ⟨events, run⟩⟩
    | true =>
      obtain ⟨turned, after, attempted⟩ :=
        exists_settled now.cpu.regs.ip fun failed => step_error_cases failed
      exact ⟨turned, after, attempted, fun stays'' =>
        ⟨_, run.append (.cons (.attempt attempted rfl rfl) (.nil _))⟩⟩

/-- **A round of a run in step mode** comes to something. If it stays in step mode, it is an order of
operations. -/
theorem run_turn :
    ∃ turned after, turn env limit steps m = .ok turned after ∧
      ∀ stays' : after.control.stepMode = true, ∃ events,
        Run env ⟨m, .checking limit steps, fun _ => stays⟩ events
          ⟨after, .behind limit steps turned, fun _ => stays'⟩ := by
  rw [turn, get_bind]
  cases met : checks? m limit steps with
  | some reason => exact ⟨.finish reason, m, rfl, fun _ => ⟨_, .cons (.look met) (.nil _)⟩⟩
  | none =>
    obtain ⟨turned, after, turns, runs⟩ := run_takeTurn env stays manual
    refine ⟨turned, after, turns, fun stays' => ?_⟩
    obtain ⟨events, run⟩ := runs stays'
    exact ⟨_, .cons (.look met) run⟩

/-- **So is a round that has waited**, for a token or for a key. -/
theorem run_retry (wait : Wait) :
    ∃ turned after, retry env wait m = .ok turned after ∧
      ∀ stays' : after.control.stepMode = true, ∃ events,
        Run env ⟨m, .behind limit steps (.pause wait), fun _ => stays⟩ events
          ⟨after, .behind limit steps turned, fun _ => stays'⟩ := by
  cases wait with
  | token => exact run_takeTurn env stays manual
  | key ip =>
    obtain ⟨turned, after, attempted⟩ := exists_settled ip (guarded_error_cases (m := m))
    exact ⟨turned, after, attempted, fun stays' => ⟨_, .cons (.again attempted rfl rfl) (.nil _)⟩⟩

end Rounds

end Stepping

end EightBit
