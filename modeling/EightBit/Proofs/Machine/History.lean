import EightBit.Proofs.Machine.Triple

/-!
# Histories

Several callers use a machine at the same time, each of them in indivisible operations. A history is one of
the orders in which these operations can be made. What every operation keeps or balances is kept or balanced
by every history.

A part of a machine is often called from outside, call by call. A call can fail, because an observer it has
woken fails or because it refuses to do what it is asked; the next call is then made on the machine that it has
left behind. What the calls do to the part is often a plain function of its state, and the state after any
number of calls is then the fold of that function.

## Main Definitions

- `History`: events one after the other.
- `total`: what the events of a history add up to.
- `leftBy`, `afterCalls`: the machine that an action leaves behind, and the one that calls leave behind.
- `Tracks`: what a call does to the state of a part.

## Main Statements

- `History.split`: a history up to an event, and from there on.
- `History.keeps`, `History.balance`: from one event to all of them.
- `Tracks.afterCalls`: what all calls together do to the state of a part.
-/

namespace EightBit

variable {δ ε : Type}

/-- **Events one after the other**, each of them a step from the state that the one before has led to. -/
inductive History (Step : δ → ε → δ → Prop) : δ → List ε → δ → Prop
  | nil (state : δ) : History Step state [] state
  | cons {state next last : δ} {event : ε} {events : List ε} (step : Step state event next)
      (rest : History Step next events last) : History Step state (event :: events) last

/-- What events add up to, each of them counting for so much. -/
def total (count : ε → Nat) : List ε → Nat
  | [] => 0
  | event :: events => count event + total count events

@[simp] theorem total_nil (count : ε → Nat) : total count [] = 0 :=
  rfl

@[simp] theorem total_cons (count : ε → Nat) (event : ε) (events : List ε) :
    total count (event :: events) = count event + total count events :=
  rfl

/-- A sum of something has a part that counts. -/
theorem exists_of_total_ne_zero {count : ε → Nat} {events : List ε} (some : total count events ≠ 0) :
    ∃ event ∈ events, count event ≠ 0 := by
  induction events with
  | nil => exact absurd rfl some
  | cons first events ih =>
    by_cases counts : count first = 0
    · rw [total_cons, counts, Nat.zero_add] at some
      obtain ⟨event, among, is⟩ := ih some
      exact ⟨event, List.mem_cons_of_mem _ among, is⟩
    · exact ⟨first, List.mem_cons_self, counts⟩

theorem total_le_total {less more : ε → Nat} (each : ∀ event, less event ≤ more event) (events : List ε) :
    total less events ≤ total more events := by
  induction events with
  | nil => exact Nat.le_refl 0
  | cons event events ih => exact Nat.add_le_add (each event) ih

/-- If one of the events counts for more, so do all of them together. -/
theorem total_lt_total {less more : ε → Nat} (each : ∀ event, less event ≤ more event) {event : ε}
    {events : List ε} (among : event ∈ events) (counts : less event < more event) :
    total less events < total more events := by
  induction events with
  | nil => cases among
  | cons first events ih =>
    obtain rfl | among := List.mem_cons.1 among
    · exact Nat.add_lt_add_of_lt_of_le counts (total_le_total each events)
    · exact Nat.add_lt_add_of_le_of_lt (each first) (ih among)

/-- What events come to for which something is picked, one after the other. -/
theorem filterMap_cons_eq {ι : Type} (pick : ε → Option ι) (event : ε) (events : List ε) :
    (event :: events).filterMap pick = (pick event).toList ++ events.filterMap pick := by
  rw [List.filterMap_cons]
  cases pick event <;> rfl

namespace History

variable {Step : δ → ε → δ → Prop} {state middle last : δ} {events more : List ε}

theorem append (history : History Step state events middle) (rest : History Step middle more last) :
    History Step state (events ++ more) last := by
  induction history with
  | nil state => exact rest
  | cons step _ ih => exact .cons step (ih rest)

theorem split (history : History Step state (events ++ more) last) :
    ∃ middle, History Step state events middle ∧ History Step middle more last := by
  induction events generalizing state with
  | nil => exact ⟨state, .nil state, history⟩
  | cons event events ih =>
    cases history with
    | cons step rest =>
      obtain ⟨middle, before, behind⟩ := ih rest
      exact ⟨middle, .cons step before, behind⟩

/-- **What every step keeps is kept.** -/
theorem keeps {P : δ → Prop} (history : History Step state events last)
    (each : ∀ {state event next}, event ∈ events → Step state event next → P state → P next)
    (holds : P state) : P last := by
  induction history with
  | nil state => exact holds
  | cons step _ ih =>
    exact ih (fun among => each (List.mem_cons_of_mem _ among)) (each List.mem_cons_self step holds)

/-- **What every step balances is balanced.** Gains and losses of a level may depend on the event. -/
theorem balance {level : δ → Nat} {gain loss : ε → Nat} (history : History Step state events last)
    (each : ∀ {state event next}, event ∈ events → Step state event next →
      level next + loss event = level state + gain event) :
    level last + total loss events = level state + total gain events := by
  induction history with
  | nil state => rfl
  | @cons state next last event events step _ ih =>
    have first := each List.mem_cons_self step
    have rest := ih fun among => each (List.mem_cons_of_mem _ among)
    rw [total_cons, total_cons]
    omega

end History

namespace Machine

/-! ## Calls one after the other -/

variable {σ α ι : Type}

/-- The machine that an action leaves behind, whether it succeeds or fails. -/
def leftBy (action : Action σ α) (m : Machine σ) : Machine σ :=
  match action m with
  | .ok _ after => after
  | .error _ after => after

theorem Ensures.leftBy {P Q : Machine σ → Prop} {action : Action σ α}
    (ensures : Ensures P action (fun _ => Q) fun _ => Q) {m : Machine σ} (holds : P m) :
    Q (leftBy action m) := by
  have done := ensures m holds
  rw [Machine.leftBy]
  cases ran : action m with
  | ok a after =>
    rw [ran] at done
    exact done
  | error failure after =>
    rw [ran] at done
    exact done

theorem leftBy_of_ok {action : Action σ α} {m after : Machine σ} {a : α} (ran : action m = .ok a after) :
    leftBy action m = after := by
  rw [leftBy, ran]

/-- The machine that calls leave behind, each one made on what the one before has left. -/
def afterCalls (perform : ι → Action σ Unit) (calls : List ι) (m : Machine σ) : Machine σ :=
  calls.foldl (fun now call => leftBy (perform call) now) m

theorem afterCalls_append (perform : ι → Action σ Unit) (calls more : List ι) (m : Machine σ) :
    afterCalls perform (calls ++ more) m = afterCalls perform more (afterCalls perform calls m) :=
  List.foldl_append

/-- The last call is made on what the others have left. -/
theorem afterCalls_concat (perform : ι → Action σ Unit) (calls : List ι) (call : ι) (m : Machine σ) :
    afterCalls perform (calls ++ [call]) m = leftBy (perform call) (afterCalls perform calls m) :=
  afterCalls_append perform calls [call] m

/-- **Every call takes a machine whose part is in some state to one whose part is in the next state**, whether
the call succeeds or fails. -/
def Tracks (perform : ι → Action σ Unit) (next : ι → δ → δ) (Is : δ → Machine σ → Prop) : Prop :=
  ∀ call state, Ensures (Is state) (perform call) (fun _ => Is (next call state)) fun _ =>
    Is (next call state)

/-- **All calls together** lead to the fold of the single ones. -/
theorem Tracks.afterCalls {perform : ι → Action σ Unit} {next : ι → δ → δ} {Is : δ → Machine σ → Prop}
    (tracks : Tracks perform next Is) (calls : List ι) {state : δ} {m : Machine σ} (is : Is state m) :
    Is (calls.foldl (fun now call => next call now) state) (afterCalls perform calls m) := by
  induction calls generalizing state m with
  | nil => exact is
  | cons call rest ih => exact ih ((tracks call state).leftBy is)

end Machine

end EightBit
