import EightBit.Proofs.Machine.History
import EightBit.Proofs.Machine.Requests

/-!
# The Keyboard as a Latch

Presses, reads, clears and an abort may all be going on at once. Each of them works on the latch in
indivisible operations: a press puts a key, a read and a clear take out what is there, and an abort clears
the latch and offers it the marker, again and again until the marker is taken. What follows holds for every
order of these operations, whoever makes them, with one abort at a time.

## Main Definitions

- `offerAbort`: the second half of a round of an abort.
- `Desk`, `Event`, `Step`: a machine with its callers, and the operations one after the other.
- `Moves`: all that an operation can do to the latch.
- `Orderly`: the rules of a latch.

## Main Statements

- `Step.moves`: operations do nothing else.
- `Run.account`: a key that is taken in is removed once.
- `Run.rounds`: how many rounds an abort takes.
- `run_orderly`: every order of operations keeps the rules.
- `run_abortWhilePressing`, `run_readKey`: the longer actions of the keyboard consist of these operations.
-/

namespace EightBit

/-! ## Codes -/

/-- Printable ASCII, backspace, tab, enter and escape. -/
def IsKeyCode (code : UInt8) : Prop :=
  (32 ≤ code ∧ code ≤ 126) ∨ code = 8 ∨ code = 9 ∨ code = 13 ∨ code = 27

namespace Key

theorem isValid_iff (code : Int) : isValid code = true ↔
    (32 ≤ code ∧ code ≤ 126) ∨ code = 8 ∨ code = 9 ∨ code = 13 ∨ code = 27 := by
  simp only [isValid, Bool.or_eq_true, Bool.and_eq_true, decide_eq_true_eq, beq_iff_eq]
  omega

theorem isKeyCode_toByte {code : Int} (valid : isValid code = true) :
    IsKeyCode (Bits.toByte code) := by
  have byte := Bits.toNat_toByte code
  have cases := (isValid_iff code).1 valid
  have same : ((Bits.toByte code).toNat : Int) = code := by
    rw [byte, Int.emod_eq_of_lt] <;> omega
  simp only [IsKeyCode, UInt8.le_iff_toNat_le, ← UInt8.toNat_inj, UInt8.reduceToNat]
  omega

/-- A key that the keyboard has produces one of its codes. -/
theorem isKeyCode_of_resolve {key : Key} {code : UInt8} (resolved : key.resolve = .ok code) :
    IsKeyCode code := by
  rw [resolve] at resolved
  -- the code has been looked up in the table of keys, and every key there has a valid one
  cases requested : key.requested with
  | error refusal =>
    rw [requested] at resolved
    cases resolved
  | ok number =>
    rw [requested] at resolved
    change (if isValid number then _ else _) = _ at resolved
    split at resolved
    · next valid =>
      obtain rfl := Except.ok.inj resolved
      exact isKeyCode_toByte valid
    · cases resolved

end Key

namespace Latched

/-- An item of the latch is the code of a key, or the marker. -/
def IsProper : Latched → Prop
  | key code => IsKeyCode code
  | abort => True

/-- The code of an item, if it is a key. -/
def code? : Latched → Option UInt8
  | key code => some code
  | abort => none

end Latched

namespace Machine

variable {σ : Type}

/-! ## Operations on the latch -/

/-- What the latch holds. -/
def slot (m : Machine σ) : Option Latched :=
  m.devices.keyboard.slot

/-- The latch holds something else. -/
def withSlot (m : Machine σ) (slot : Option Latched) : Machine σ :=
  { m with devices := { m.devices with keyboard := ⟨slot⟩ } }

/-- Offers the marker of an abort to the latch: whether it was taken. -/
def offerAbort : Action σ Bool := do
  match (← get).devices.keyboard.put? .abort with
  | some keyboard =>
    modifyDevices fun devices => { devices with keyboard }
    return true
  | none => return false

/-- A key that the keyboard does not have is refused. -/
theorem press_of_refused {key : Key} {refusal : Refusal} (refused : key.resolve = .error refusal)
    (m : Machine σ) : press key m = .error (.refused refusal) m := by
  rw [press, refused]
  rfl

/-- A key goes into an empty latch. Otherwise it is dropped, and only the journal tells of it. -/
theorem press_cases {key : Key} {code : UInt8} (resolved : key.resolve = .ok code) (m : Machine σ) :
    (m.slot = none ∧ press key m = .ok true (m.withSlot (some (.key code)))) ∨
    (∃ item journal, m.slot = some item ∧ press key m = .ok false { m with journal }) := by
  rw [press, resolved]
  dsimp only
  rw [get_bind, Keyboard.press, Keyboard.put?]
  cases holds : m.devices.keyboard.slot with
  | none => exact .inl ⟨holds, rfl⟩
  | some item => exact .inr ⟨item, _, holds, rfl⟩

/-- A read waits, returns the key that it takes, or takes the marker and is given up. -/
theorem takeKey_cases (m : Machine σ) :
    (m.slot = none ∧ takeKey m = .error .waiting m) ∨
    (∃ code, m.slot = some (.key code) ∧ takeKey m = .ok code (m.withSlot none)) ∨
    (m.slot = some .abort ∧ takeKey m = .error .aborted (m.withSlot none)) := by
  rw [takeKey, get_bind, Keyboard.take?]
  cases holds : m.devices.keyboard.slot with
  | none => exact .inl ⟨holds, rfl⟩
  | some item =>
    cases item with
    | key code => exact .inr (.inl ⟨code, holds, rfl⟩)
    | abort => exact .inr (.inr ⟨holds, rfl⟩)

/-- The marker goes into an empty latch only. -/
theorem offerAbort_cases (m : Machine σ) :
    (m.slot = none ∧ offerAbort m = .ok true (m.withSlot (some .abort))) ∨
    (∃ item, m.slot = some item ∧ offerAbort m = .ok false m) := by
  rw [offerAbort, get_bind, Keyboard.put?]
  cases holds : m.devices.keyboard.slot with
  | none => exact .inl ⟨holds, rfl⟩
  | some item => exact .inr ⟨item, holds, rfl⟩

end Machine

/-! ## Operations one after the other -/

namespace Latch

open Machine

variable {σ : Type}

/-- How far the abort has got, if there is one. -/
inductive Stage
  | idle
  /-- The latch was cleared, and is to be offered the marker. -/
  | offering
  /-- The marker was not taken, so the latch is to be cleared again. -/
  | retrying
  deriving DecidableEq, Repr

/-- A machine and the abort that is going on. -/
structure Desk (σ : Type) where
  machine : Machine σ
  stage : Stage := .idle

/-- What the latch of a desk holds. -/
def Desk.slot (desk : Desk σ) : Option Latched :=
  desk.machine.slot

/-- What one operation has come to. -/
inductive Event
  /-- A key with this code was pressed, and the latch took it or did not. -/
  | press (code : UInt8) (taken : Bool)
  /-- A key was pressed that the keyboard does not have. -/
  | refuse
  /-- A read has returned a key. -/
  | read (code : UInt8)
  /-- A read was given up. -/
  | raise
  /-- A read has found nothing, and goes on waiting. -/
  | wait
  /-- The latch was cleared, and this was dropped. -/
  | clear (dropped : Option Latched)
  /-- The same as the first half of the first round of an abort. -/
  | abortFirst (dropped : Option Latched)
  /-- The same as the first half of another round. -/
  | abortAgain (dropped : Option Latched)
  /-- The second half of a round of an abort: whether the marker was taken. -/
  | abortOffer (taken : Bool)
  /-- Something has happened that does not concern the keyboard. -/
  | elsewhere
  deriving DecidableEq, Repr

/-- **One operation** of any of the callers. Only an abort has more than one to make, so it is the only one
that has to be remembered. -/
inductive Step : Desk σ → Event → Desk σ → Prop
  | press {m after : Machine σ} {stage key code taken} (resolved : key.resolve = .ok code)
      (ran : press key m = .ok taken after) :
      Step ⟨m, stage⟩ (.press code taken) ⟨after, stage⟩
  | refuse {m after : Machine σ} {stage key refusal} (resolved : key.resolve = .error refusal)
      (ran : press key m = .error (.refused refusal) after) : Step ⟨m, stage⟩ .refuse ⟨after, stage⟩
  | read {m after : Machine σ} {stage code} (ran : takeKey m = .ok code after) :
      Step ⟨m, stage⟩ (.read code) ⟨after, stage⟩
  | raise {m after : Machine σ} {stage} (ran : takeKey m = .error .aborted after) :
      Step ⟨m, stage⟩ .raise ⟨after, stage⟩
  | wait {m after : Machine σ} {stage} (ran : takeKey m = .error .waiting after) :
      Step ⟨m, stage⟩ .wait ⟨after, stage⟩
  | clear {m after : Machine σ} {stage} (ran : clearKeyboard m = .ok () after) :
      Step ⟨m, stage⟩ (.clear m.slot) ⟨after, stage⟩
  | abortFirst {m after : Machine σ} (ran : clearKeyboard m = .ok () after) :
      Step ⟨m, .idle⟩ (.abortFirst m.slot) ⟨after, .offering⟩
  | abortAgain {m after : Machine σ} (ran : clearKeyboard m = .ok () after) :
      Step ⟨m, .retrying⟩ (.abortAgain m.slot) ⟨after, .offering⟩
  | abortOffer {m after : Machine σ} {taken} (ran : offerAbort m = .ok taken after) :
      Step ⟨m, .offering⟩ (.abortOffer taken) ⟨after, if taken then .idle else .retrying⟩
  | elsewhere {m after : Machine σ} {stage} (same : after.devices.keyboard = m.devices.keyboard) :
      Step ⟨m, stage⟩ .elsewhere ⟨after, stage⟩

/-- **All that an operation can do** to the latch and to the abort. -/
inductive Moves : Option Latched → Stage → Event → Option Latched → Stage → Prop
  | taken {stage code} (isCode : IsKeyCode code) :
      Moves none stage (.press code true) (some (.key code)) stage
  | dropped {item stage code} : Moves (some item) stage (.press code false) (some item) stage
  | refuse {slot stage} : Moves slot stage .refuse slot stage
  | read {stage code} : Moves (some (.key code)) stage (.read code) none stage
  | raise {stage} : Moves (some .abort) stage .raise none stage
  | wait {stage} : Moves none stage .wait none stage
  | clear {slot stage} : Moves slot stage (.clear slot) none stage
  | abortFirst {slot} : Moves slot .idle (.abortFirst slot) none .offering
  | abortAgain {slot} : Moves slot .retrying (.abortAgain slot) none .offering
  | placed : Moves none .offering (.abortOffer true) (some .abort) .idle
  | missed {item} : Moves (some item) .offering (.abortOffer false) (some item) .retrying
  | elsewhere {slot stage} : Moves slot stage .elsewhere slot stage

/-- **Operations do nothing else.** -/
theorem Step.moves {desk next : Desk σ} {event : Event} (step : Step desk event next) :
    Moves desk.slot desk.stage event next.slot next.stage := by
  cases step with
  -- each operation is one look at the latch, whatever else it does to the machine
  | @press m after stage key code taken resolved ran =>
    show Moves m.slot _ _ after.slot _
    obtain ⟨holds, pressed⟩ | ⟨item, journal, holds, pressed⟩ := press_cases resolved m
    · rw [pressed] at ran
      cases ran
      rw [holds]
      exact .taken (Key.isKeyCode_of_resolve resolved)
    · rw [pressed] at ran
      cases ran
      show Moves m.slot _ _ m.slot _
      rw [holds]
      exact .dropped
  | @refuse m after stage key refusal resolved ran =>
    rw [press_of_refused resolved] at ran
    obtain ⟨-, rfl⟩ := EStateM.Result.error.inj ran
    exact .refuse
  | @read m after stage code ran =>
    show Moves m.slot _ _ _ _
    obtain ⟨holds, took⟩ | ⟨code', holds, took⟩ | ⟨holds, took⟩ := takeKey_cases m
    all_goals rw [took] at ran; cases ran
    rw [holds]
    exact .read
  -- an operation with another outcome than its event is none of these
  | @raise m after stage ran =>
    show Moves m.slot _ _ _ _
    obtain ⟨holds, took⟩ | ⟨code, holds, took⟩ | ⟨holds, took⟩ := takeKey_cases m
    all_goals rw [took] at ran; cases ran
    rw [holds]
    exact .raise
  | @wait m after stage ran =>
    show Moves m.slot _ _ _ _
    obtain ⟨holds, took⟩ | ⟨code, holds, took⟩ | ⟨holds, took⟩ := takeKey_cases m
    all_goals rw [took] at ran; cases ran
    show Moves m.slot _ _ m.slot _
    rw [holds]
    exact .wait
  | clear ran =>
    cases ran
    exact .clear
  | abortFirst ran =>
    cases ran
    exact .abortFirst
  | abortAgain ran =>
    cases ran
    exact .abortAgain
  | @abortOffer m after taken ran =>
    show Moves m.slot _ _ after.slot _
    obtain ⟨holds, offered⟩ | ⟨item, holds, offered⟩ := offerAbort_cases m
    · rw [offered] at ran
      cases ran
      rw [holds]
      exact .placed
    · rw [offered] at ran
      cases ran
      rw [holds]
      exact .missed
  -- what leaves the latch alone is no operation on it
  | @elsewhere m after stage same =>
    have still : after.slot = m.slot := congrArg Keyboard.slot same
    show Moves m.slot _ _ after.slot _
    rw [still]
    exact .elsewhere

/-! ## Orders of operations -/

/-- Operations one after the other, in any order. -/
abbrev Run : Desk σ → List Event → Desk σ → Prop :=
  History Step

/-! ### What the latch holds -/

theorem Moves.proper {slot after : Option Latched} {stage next : Stage} {event : Event}
    (moves : Moves slot stage event after next) (proper : ∀ item ∈ slot, item.IsProper) :
    ∀ item ∈ after, item.IsProper := by
  -- three operations leave something in the latch: a key, the marker, or what was there before
  cases moves with
  | taken isCode =>
    rintro _ ⟨⟩
    exact isCode
  | placed =>
    rintro _ ⟨⟩
    trivial
  | dropped | refuse | missed | elsewhere => exact proper
  | read | raise | wait | clear | abortFirst | abortAgain => exact nofun

/-! ### Where the keys go -/

namespace Event

/-- The key that the latch has taken in. -/
def accepted? : Event → Option UInt8
  | press code true => some code
  | _ => none

/-- The key that a read has returned. -/
def returned? : Event → Option UInt8
  | read code => some code
  | _ => none

/-- What was taken out of the latch, by a read or by a clear. -/
def removed? : Event → Option Latched
  | read code => some (.key code)
  | raise => some .abort
  | clear dropped | abortFirst dropped | abortAgain dropped => dropped
  | press .. | refuse | wait | abortOffer _ | elsewhere => none

/-- The same, if it was a key. -/
def removedKey? (event : Event) : Option UInt8 :=
  event.removed?.bind Latched.code?

theorem removedKey?_of_returned {event : Event} {code : UInt8} (returned : event.returned? = some code) :
    event.removedKey? = some code := by
  cases event <;> cases returned
  rfl

end Event

/-- The key that the latch holds, if it holds one. -/
def keys (slot : Option Latched) : List UInt8 :=
  (slot.bind Latched.code?).toList

/-- The key of the latch and the key that is taken in are the one that is taken out and the one that is
there afterwards. -/
theorem Moves.account {slot after : Option Latched} {stage next : Stage} {event : Event}
    (moves : Moves slot stage event after next) :
    keys slot ++ event.accepted?.toList = event.removedKey?.toList ++ keys after := by
  cases moves <;> simp [keys, Event.accepted?, Event.removedKey?, Event.removed?, Latched.code?]

/-- **A key that is taken in is taken out once**, unless the latch still holds it; and keys are taken out in
the order in which they have come. -/
theorem Run.account {desk last : Desk σ} {events : List Event} (run : Run desk events last) :
    keys desk.slot ++ events.filterMap Event.accepted? =
      events.filterMap Event.removedKey? ++ keys last.slot := by
  induction run with
  | nil desk => exact List.append_nil _
  | @cons desk next last event events step _ ih =>
    calc keys desk.slot ++ (event :: events).filterMap Event.accepted?
      _ = (keys desk.slot ++ event.accepted?.toList) ++ events.filterMap Event.accepted? := by
        rw [filterMap_cons_eq, List.append_assoc]
      _ = event.removedKey?.toList ++ (keys next.slot ++ events.filterMap Event.accepted?) := by
        rw [step.moves.account, List.append_assoc]
      _ = (event :: events).filterMap Event.removedKey? ++ keys last.slot := by
        rw [ih, filterMap_cons_eq, List.append_assoc]

/-- The keys that reads return are some of those that are taken out, in the same order. -/
theorem returned_sublist (events : List Event) :
    (events.filterMap Event.returned?).Sublist (events.filterMap Event.removedKey?) := by
  induction events with
  | nil => exact .slnil
  | cons event events ih =>
    rw [filterMap_cons_eq, filterMap_cons_eq]
    refine .append ?_ ih
    -- every key that is returned has been removed
    cases returned : event.returned? with
    | none => exact List.nil_sublist _
    | some code =>
      have removed := congrArg Option.toList (Event.removedKey?_of_returned returned)
      exact removed ▸ List.Sublist.refl _

/-- What is in the latch stays there, or is taken out. -/
theorem Moves.keeps_or_removes {item : Latched} {after : Option Latched} {stage next : Stage}
    {event : Event} (moves : Moves (some item) stage event after next) :
    (event.removed? = none ∧ after = some item) ∨ event.removed? = some item := by
  cases moves with
  | dropped | refuse | missed | elsewhere => exact .inl ⟨rfl, rfl⟩
  | read | raise | clear | abortFirst | abortAgain => exact .inr rfl

/-- What is in the latch is what is taken out next. -/
theorem Run.next_removed {desk last : Desk σ} {events : List Event} {item : Latched}
    (run : Run desk events last) (holds : desk.slot = some item) :
    ((∀ event ∈ events, event.removed? = none) ∧ last.slot = some item) ∨
      ∃ between event rest, events = between ++ event :: rest ∧
        (∀ earlier ∈ between, earlier.removed? = none) ∧ event.removed? = some item := by
  induction run with
  | nil desk => exact .inl ⟨nofun, holds⟩
  | @cons desk next last event events step _ ih =>
    -- the first operation either takes out the item or leaves it for the rest
    have moves := step.moves
    rw [holds] at moves
    obtain ⟨keeps, still⟩ | removes := moves.keeps_or_removes
    · obtain ⟨all, holds⟩ | ⟨between, event', rest, rfl, before, removes⟩ := ih still
      · exact .inl ⟨List.forall_mem_cons.2 ⟨keeps, all⟩, holds⟩
      · exact .inr ⟨event :: between, event', rest, rfl, List.forall_mem_cons.2 ⟨keeps, before⟩,
          removes⟩
    · exact .inr ⟨[], event, events, rfl, nofun, removes⟩

/-! ### Rounds of an abort -/

namespace Event

/-- The operation begins a round of an abort. -/
def opensRound : Event → Bool
  | abortFirst _ | abortAgain _ => true
  | _ => false

/-- Nothing is taken out of the latch but by the abort, and the abort goes on. -/
def IsCalm : Event → Prop
  | read _ | raise | clear _ | abortOffer true => False
  | _ => True

end Event

/-- The number of items in a latch. -/
def count (slot : Option Latched) : Nat :=
  slot.toList.length

/-- An abort is going on; before its next round the latch is not empty. -/
structure Aborting (slot : Option Latched) (stage : Stage) : Prop where
  goes : stage ≠ .idle
  occupied : stage = .retrying → slot ≠ none

/-- A round of an abort takes out what was taken in since the round before. -/
theorem Moves.rounds {slot after : Option Latched} {stage next : Stage} {event : Event}
    (moves : Moves slot stage event after next) (aborting : Aborting slot stage) (calm : event.IsCalm) :
    Aborting after next ∧
      event.opensRound.toNat + count after = event.accepted?.toList.length + count slot := by
  cases moves with
  | taken isCode => exact ⟨⟨aborting.goes, nofun⟩, rfl⟩
  | dropped | refuse | wait | elsewhere => exact ⟨aborting, rfl⟩
  | missed => exact ⟨⟨nofun, nofun⟩, rfl⟩
  | abortFirst => exact absurd rfl aborting.goes
  | abortAgain =>
    -- a further round takes out what was put in front of the marker, so that press pays for it
    obtain ⟨item, rfl⟩ := Option.ne_none_iff_exists'.1 (aborting.occupied rfl)
    exact ⟨⟨nofun, nofun⟩, rfl⟩
  | read | raise | clear | placed => exact calm.elim

theorem countP_cons_eq {α : Type} (p : α → Bool) (a : α) (rest : List α) :
    (a :: rest).countP p = (p a).toNat + rest.countP p := by
  rw [List.countP_cons, Nat.add_comm]
  cases p a <;> rfl

/-- As long as nobody else takes something out, the rounds of an abort balance the keys that are taken in. -/
theorem Run.rounds {desk last : Desk σ} {events : List Event} (run : Run desk events last)
    (aborting : Aborting desk.slot desk.stage) (calm : ∀ event ∈ events, event.IsCalm) :
    events.countP Event.opensRound + count last.slot =
      (events.filterMap Event.accepted?).length + count desk.slot := by
  induction run with
  | nil desk => rfl
  | @cons desk next last event events step _ ih =>
    rw [List.forall_mem_cons] at calm
    obtain ⟨going, balance⟩ := step.moves.rounds aborting calm.1
    have rest := ih going calm.2
    rw [countP_cons_eq, filterMap_cons_eq, List.length_append]
    omega

/-- The first half of a round leaves an empty latch. -/
theorem Moves.of_abortFirst {slot after dropped : Option Latched} {stage next : Stage}
    (moves : Moves slot stage (.abortFirst dropped) after next) : after = none ∧ next = .offering := by
  cases moves
  exact ⟨rfl, rfl⟩

/-- The marker is put into an empty latch. -/
theorem Moves.of_placed {slot after : Option Latched} {stage next : Stage}
    (moves : Moves slot stage (.abortOffer true) after next) : slot = none ∧ after = some .abort := by
  cases moves
  exact ⟨rfl, rfl⟩

/-- An abort ends with its marker. -/
theorem Moves.ends {slot after : Option Latched} {stage : Stage} {event : Event}
    (moves : Moves slot stage event after .idle) (goes : stage ≠ .idle) : event = .abortOffer true := by
  cases moves with
  | placed => rfl
  | _ => exact absurd rfl goes

/-- **The rounds of an abort** are one more than the keys that are taken in between its first clear and its
last offer. -/
theorem Run.rounds_of_abort {desk last : Desk σ} {dropped : Option Latched} {during behind : List Event}
    (run : Run desk (.abortFirst dropped :: during ++ .abortOffer true :: behind) last)
    (calm : ∀ event ∈ during, event.IsCalm) :
    (Event.abortFirst dropped :: during).countP Event.opensRound =
      (during.filterMap Event.accepted?).length + 1 := by
  cases run with
  | @cons _ cleared _ _ _ first run =>
    -- the latch is empty at both ends, so that what comes in between has gone out again
    obtain ⟨offering, run, rest⟩ := run.split
    have begins := first.moves.of_abortFirst
    have ends : offering.slot = none := by
      cases rest with
      | cons step _ => exact step.moves.of_placed.1
    have balance := Run.rounds run (by rw [begins.1, begins.2]; exact ⟨nofun, nofun⟩) calm
    rw [begins.1, ends] at balance
    rw [countP_cons_eq, show during.countP Event.opensRound = _ from balance]
    exact Nat.add_comm ..

/-! ## The rules of the latch -/

/-- **The rules of a latch**, after these operations on a new one. -/
structure Orderly (events : List Event) (now : Desk σ) : Prop where
  /-- It holds nothing but codes of keys and the marker of an abort. -/
  proper : ∀ item ∈ now.slot, item.IsProper
  /-- A key that the keyboard has is always answered: the answer is no if and only if the latch is occupied,
  and then nothing has changed but the journal. -/
  press : ∀ key code, key.resolve = .ok code → ∃ taken after,
    press key now.machine = .ok taken after ∧ (taken = false ↔ now.slot ≠ none) ∧
      (taken = false → ∃ journal, after = { now.machine with journal }) ∧
      (taken = true → after.slot = some (.key code))
  /-- The keys that were taken in are those that were taken out and the one that is there, in this order. -/
  account : events.filterMap Event.accepted? = events.filterMap Event.removedKey? ++ keys now.slot
  /-- Each of them is still there, or was taken out by the next operation that has taken out anything. -/
  once : ∀ before code behind, events = before ++ .press code true :: behind →
    ((∀ event ∈ behind, event.removed? = none) ∧ now.slot = some (.key code)) ∨
      ∃ between event rest, behind = between ++ event :: rest ∧
        (∀ earlier ∈ between, earlier.removed? = none) ∧ event.removed? = some (.key code)
  /-- Reads have returned keys in the order of their presses. -/
  order : (events.filterMap Event.returned?).Sublist (events.filterMap Event.accepted?)
  /-- An abort ends when it has put the marker into the empty latch, and not before. -/
  abort : ∀ event next, Step now event next → now.stage ≠ .idle → next.stage = .idle →
    event = .abortOffer true ∧ now.slot = none ∧ next.slot = some .abort
  /-- It has then taken one round more than keys were taken in meanwhile, if nobody else has taken out
  anything. -/
  rounds : ∀ before dropped during behind,
    events = before ++ .abortFirst dropped :: during ++ .abortOffer true :: behind →
    (∀ event ∈ during, event.IsCalm) →
    (Event.abortFirst dropped :: during).countP Event.opensRound =
      (during.filterMap Event.accepted?).length + 1
  /-- A read is given up if and only if it takes the marker. -/
  read : (∃ after, takeKey now.machine = .error .aborted after) ↔ now.slot = some .abort

/-- A machine with a new keyboard, and nobody who aborts. -/
structure Desk.New (desk : Desk σ) : Prop where
  keyboard : desk.machine.devices.keyboard = {}
  stage : desk.stage = .idle

theorem Desk.New.slot {desk : Desk σ} (new : desk.New) : desk.slot = none :=
  congrArg Keyboard.slot new.keyboard

theorem Run.proper {desk last : Desk σ} {events : List Event} (run : Run desk events last)
    (proper : ∀ item ∈ desk.slot, item.IsProper) : ∀ item ∈ last.slot, item.IsProper :=
  run.keeps (fun _ step proper => step.moves.proper proper) proper

/-- What the operation took in is what the latch holds afterwards. -/
theorem Moves.of_taken {slot after : Option Latched} {stage next : Stage} {code : UInt8}
    (moves : Moves slot stage (.press code true) after next) : after = some (.key code) := by
  cases moves
  rfl

theorem press_answer {key : Key} {code : UInt8} (resolved : key.resolve = .ok code) (m : Machine σ) :
    ∃ taken after, press key m = .ok taken after ∧ (taken = false ↔ m.slot ≠ none) ∧
      (taken = false → ∃ journal, after = { m with journal }) ∧
      (taken = true → after.slot = some (.key code)) := by
  obtain ⟨holds, pressed⟩ | ⟨item, journal, holds, pressed⟩ := press_cases resolved m
  · exact ⟨true, _, pressed, by simp [holds], nofun, fun _ => rfl⟩
  · exact ⟨false, _, pressed, by simp [holds], fun _ => ⟨journal, rfl⟩, nofun⟩

theorem takeKey_aborted_iff (m : Machine σ) :
    (∃ after, takeKey m = .error .aborted after) ↔ m.slot = some .abort := by
  obtain ⟨holds, took⟩ | ⟨code, holds, took⟩ | ⟨holds, took⟩ := takeKey_cases m
  all_goals simp [holds, took]

/-- **The keyboard is a latch**, in whatever order its operations are made. -/
theorem run_orderly {desk last : Desk σ} {events : List Event} (new : desk.New)
    (run : Run desk events last) : Orderly events last := by
  -- the latch is empty at first, so everything that it gives out has been put in
  have account := run.account
  rw [new.slot] at account
  exact
    { proper := run.proper (by rw [new.slot]; exact nofun)
      press := fun key code resolved => press_answer resolved last.machine
      account := account
      once := by
        -- after a code has been taken, the next thing to leave the latch is that code
        rintro before code behind rfl
        obtain ⟨middle, -, rest⟩ := run.split
        cases rest with
        | cons step rest => exact Run.next_removed rest step.moves.of_taken
      order := by
        refine (returned_sublist events).trans ?_
        rw [show events.filterMap Event.accepted? = _ from account]
        exact List.sublist_append_left ..
      -- what stops an abort is that its marker has been placed
      abort := by
        intro event next step goes stops
        have moves := step.moves
        rw [stops] at moves
        obtain rfl := moves.ends goes
        exact ⟨rfl, moves.of_placed⟩
      rounds := by
        rintro before dropped during behind rfl calm
        rw [List.append_assoc] at run
        obtain ⟨begun, -, run⟩ := run.split
        exact Run.rounds_of_abort run calm
      read := takeKey_aborted_iff last.machine }

/-- A key is pressed while another one waits, and a third one between clear and offer of an abort; then the
keyboard is read. -/
def disturbedAbort : List Event :=
  [.press 97 true, .press 98 false, .abortFirst (some (.key 97)), .press 99 true, .abortOffer false,
    .abortAgain (some (.key 99)), .abortOffer true, .raise]

theorem run_orderly_of_disturbedAbort :
    ∃ last : Desk Unit, Desk.New ⟨simulator (), .idle⟩ ∧ Run ⟨simulator (), .idle⟩ disturbedAbort last ∧
      Orderly disturbedAbort last := by
  have pressed : ∀ code : Fin 3, (Key.code (97 + code)).resolve = .ok (97 + UInt8.ofNat code) := by
    decide
  have run : Run ⟨simulator (), .idle⟩ disturbedAbort _ :=
    .cons (.press (pressed 0) rfl) <| .cons (.press (pressed 1) rfl) <| .cons (.abortFirst rfl) <|
    .cons (.press (pressed 2) rfl) <| .cons (.abortOffer rfl) <| .cons (.abortAgain rfl) <|
    .cons (.abortOffer rfl) <| .cons (.raise rfl) <| .nil _
  exact ⟨_, ⟨rfl, rfl⟩, run, run_orderly ⟨rfl, rfl⟩ run⟩

/-! ## The longer actions -/

/-- The machine that an action has left behind, whether it has succeeded or failed. -/
def left {α : Type} : EStateM.Result Failure (Machine σ) α → Machine σ
  | .ok _ after => after
  | .error _ after => after

section Actions

variable {stage : Stage}

theorem exists_step_press (key : Key) (m : Machine σ) :
    ∃ event, Step ⟨m, stage⟩ event ⟨left (press key m), stage⟩ := by
  cases resolved : key.resolve with
  | error refusal =>
    have refused := press_of_refused resolved m
    rw [refused]
    exact ⟨_, .refuse resolved refused⟩
  | ok code =>
    obtain ⟨holds, pressed⟩ | ⟨item, journal, holds, pressed⟩ := press_cases resolved m
    · rw [pressed]
      exact ⟨_, .press resolved pressed⟩
    · rw [pressed]
      exact ⟨_, .press resolved pressed⟩

theorem exists_step_takeKey (m : Machine σ) :
    ∃ event, Step ⟨m, stage⟩ event ⟨left (takeKey m), stage⟩ := by
  obtain ⟨holds, took⟩ | ⟨code, holds, took⟩ | ⟨holds, took⟩ := takeKey_cases m
  · rw [took]
    exact ⟨_, .wait took⟩
  · rw [took]
    exact ⟨_, .read took⟩
  · rw [took]
    exact ⟨_, .raise took⟩

/-- With the latch cleared for the first or for another round, and a key pressed in each of the next rounds
before the marker is offered, the abort takes one round more than that. -/
theorem run_of_intruders {key : Key} {code : UInt8} (resolved : key.resolve = .ok code) (times : Nat)
    {m : Machine σ} {first : Event} (opens : first.opensRound = true)
    (cleared : Step ⟨m, stage⟩ first ⟨m.withSlot none, .offering⟩) :
    ∃ events, Run ⟨m, stage⟩ events ⟨m.withSlot (some .abort), .idle⟩ ∧
      events.countP Event.opensRound = times + 1 := by
  -- another key in the way makes one more round, which clears the latch again
  induction times generalizing m stage first with
  | zero =>
    refine ⟨[first, .abortOffer true], .cons cleared (.cons (.abortOffer rfl) (.nil _)), ?_⟩
    rw [countP_cons_eq, opens]
    rfl
  | succ times ih =>
    let full := m.withSlot (some (.key code))
    have pressed : press key (m.withSlot none) = .ok true full := by
      obtain ⟨-, pressed⟩ | ⟨_, _, holds, -⟩ := press_cases resolved (m.withSlot none)
      · exact pressed
      · cases holds
    obtain ⟨events, run, count⟩ := ih (m := full) rfl (.abortAgain rfl)
    refine ⟨first :: .press code true :: .abortOffer false :: events,
      .cons cleared (.cons (.press resolved pressed) (.cons (.abortOffer rfl) run)), ?_⟩
    rw [countP_cons_eq, opens, countP_cons_eq, countP_cons_eq, count]
    simp only [Event.opensRound, Bool.toNat_true, Bool.toNat_false]
    omega

/-- The rounds of an abort against a key that is pressed in each of the first ones. -/
theorem abortAgainst_replicate (code : UInt8) (times : Nat) (keyboard : Keyboard) :
    keyboard.abortAgainst (List.replicate times code) = (times + 1, ⟨some .abort⟩) := by
  induction times generalizing keyboard with
  | zero => rfl
  | succ times ih =>
    have disturbed := ih ⟨some (.key code)⟩
    rw [List.replicate_succ, Keyboard.abortAgainst]
    simp only [Keyboard.clear, Keyboard.press, Keyboard.put?, disturbed]

/-- **An abort alone** is a clear and an offer. -/
theorem run_abortKeyboard (m : Machine σ) :
    Run ⟨m, .idle⟩ [.abortFirst m.slot, .abortOffer true] ⟨left (abortKeyboard m), .idle⟩ :=
  .cons (.abortFirst rfl) (.cons (.abortOffer rfl) (.nil _))

/-- **An abort with a key pressed in its rounds** is an order of operations, with the rounds that it counts. -/
theorem run_abortWhilePressing {key : Key} {times rounds : Nat} {m after : Machine σ}
    (ran : abortWhilePressing key times m = .ok rounds after) :
    ∃ events, Run ⟨m, .idle⟩ events ⟨after, .idle⟩ ∧ events.countP Event.opensRound = rounds := by
  cases times with
  | zero =>
    obtain ⟨rfl, rfl⟩ := EStateM.Result.ok.inj ran
    exact ⟨_, run_abortKeyboard m, rfl⟩
  -- keys come in between the rounds, each of them once
  | succ times =>
    cases resolved : key.resolve with
    | error refusal =>
      rw [abortWhilePressing, resolved] at ran
      cases ran
    | ok code =>
      -- every key in the way costs one more round
      have pressing : abortWhilePressing key (times + 1) m =
          .ok (times + 1 + 1) (m.withSlot (some .abort)) := by
        rw [abortWhilePressing, resolved, if_neg (Nat.succ_ne_zero times)]
        simp only [Functor.map, Except.map]
        rw [get_bind, abortAgainst_replicate]
        rfl
      rw [pressing] at ran
      obtain ⟨rfl, rfl⟩ := EStateM.Result.ok.inj ran
      exact run_of_intruders resolved (times + 1) rfl (.abortFirst rfl)

/-- **A read** is an order of operations as well: the operator may press a key or abort before it. -/
theorem run_readKey (m : Machine σ) :
    ∃ events, Run ⟨m, .idle⟩ events ⟨left (readKey m), .idle⟩ := by
  have takes (m : Machine σ) : ∃ events, Run ⟨m, .idle⟩ events ⟨left (takeKey m), .idle⟩ := by
    obtain ⟨event, step⟩ := exists_step_takeKey m
    exact ⟨[event], .cons step (.nil _)⟩
  rw [readKey, get_bind]
  split
  · cases fed : m.operator.feed with
    | nil =>
      dsimp only
      split
      · obtain ⟨events, run⟩ := takes (left (abortKeyboard m))
        exact ⟨_, (run_abortKeyboard m).append run⟩
      · exact takes m
    | cons key rest =>
      let fewer : Machine σ := { m with operator := { m.operator with feed := rest } }
      have fed : Step ⟨m, .idle⟩ .elsewhere ⟨fewer, .idle⟩ := .elsewhere rfl
      obtain ⟨event, step⟩ : ∃ event, Step ⟨fewer, .idle⟩ event _ := exists_step_press key fewer
      show ∃ events, Run _ events ⟨left ((discard (press key) >>= fun _ => takeKey) fewer), .idle⟩
      cases pressed : press key fewer with
      -- a key that the keyboard does not have ends the read before it has begun
      | error failure after =>
        have failed : (discard (press key) : Action σ Unit) fewer = .error failure after :=
          bind_of_error pressed
        rw [pressed] at step
        rw [bind_of_error failed]
        exact ⟨_, .cons fed (.cons step (.nil _))⟩
      | ok taken after =>
        have done : (discard (press key) : Action σ Unit) fewer = .ok () after := bind_of_ok pressed
        rw [pressed] at step
        rw [bind_of_ok done]
        obtain ⟨events, run⟩ := takes after
        exact ⟨_, .cons fed (.cons step run)⟩
  · exact takes m

end Actions

end Latch

end EightBit
