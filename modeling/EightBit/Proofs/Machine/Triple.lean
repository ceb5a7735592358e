import EightBit.Machine.Run

/-!
# Triples of Actions

What an action comes to is stated with three conditions: one on the machine before it, one on the
result and the machine when it succeeds, and one on the failure and the machine when it fails. A
failed action keeps what it did, so the third condition matters as much as the second.

Most of what happens at ports changes devices and nothing else. A property that is about other things is
kept there if observers and attached devices keep it. Actions that leave processor and memory alone are
called quiet; they keep every condition that looks at nothing else.

## Main Definitions

- `Ensures`: the triple, with its rules for the building blocks of actions.
- `Keeps`: an action that keeps a property also when it fails.
- `Central`: a property that has nothing to do with the devices.
- `Quiet`: the action leaves processor and memory alone.
- `Env.Bystander`: observers and attached devices that do.

## Main Statements

- `Central.readPort`, `Central.writePort`: what ports keep.
- `Quiet.keeps`: what a quiet action keeps.
- `quiet_readPort`, `quiet_writePort`: ports are quiet.
-/

namespace EightBit

namespace Machine

variable {σ α β : Type}

/-! ## Triples -/

/-- Started where `pre` holds, the action succeeds with `post` or fails with `fail`. -/
def Ensures (pre : Machine σ → Prop) (action : Action σ α) (post : α → Machine σ → Prop)
    (fail : Failure → Machine σ → Prop) : Prop :=
  ∀ m, pre m → match action m with
    | .ok a after => post a after
    | .error failure after => fail failure after

section Rules

variable {P : Machine σ → Prop} {Q : α → Machine σ → Prop} {E : Failure → Machine σ → Prop}

theorem Ensures.pure {a : α} (done : ∀ m, P m → Q a m) :
    Ensures P (pure a : Action σ α) Q E :=
  done

theorem Ensures.throw {failure : Failure} (failed : ∀ m, P m → E failure m) :
    Ensures P (throw failure : Action σ α) Q E :=
  failed

theorem Ensures.modify {f : Machine σ → Machine σ} {Q : Unit → Machine σ → Prop}
    (changed : ∀ m, P m → Q () (f m)) : Ensures P (modify f : Action σ Unit) Q E :=
  changed

/-- The second action starts where the first one succeeds. -/
theorem Ensures.bind {first : Action σ α} {next : α → Action σ β} {Q' : β → Machine σ → Prop}
    (before : Ensures P first Q E) (behind : ∀ a, Ensures (Q a) (next a) Q' E) :
    Ensures P (first >>= next) Q' E := by
  intro m holds
  have done := before m holds
  -- a failure of the first action skips the second one, with the same machine
  show match EStateM.bind first next m with
    | .ok b after => Q' b after
    | .error failure after => E failure after
  rw [EStateM.bind]
  cases ran : first m with
  | ok a middle =>
    rw [ran] at done
    exact behind a middle done
  | error failure after =>
    rw [ran] at done
    exact done

theorem get_bind {next : Machine σ → Action σ α} (m : Machine σ) : (get >>= next) m = next m m :=
  rfl

/-- What follows may use the machine as it is. -/
theorem Ensures.get {next : Machine σ → Action σ α}
    (behind : ∀ m, P m → Ensures (fun now => now = m) (next m) Q E) :
    Ensures P (get >>= next) Q E :=
  fun m holds => behind m holds m rfl

theorem Ensures.of_eq {action : Action σ α} {m : Machine σ} (holds : P m)
    (ensures : Ensures P action Q E) : Ensures (fun now => now = m) action Q E := by
  intro now same
  subst same
  exact ensures now holds

/-- A failure of the first action is where the second one starts. -/
theorem Ensures.tryCatch {work : Action σ α} {handler : Failure → Action σ α}
    {middle : Failure → Machine σ → Prop} (before : Ensures P work Q middle)
    (behind : ∀ failure, Ensures (middle failure) (handler failure) Q E) :
    Ensures P (tryCatch work handler) Q E := by
  intro m holds
  have done := before m holds
  show match EStateM.tryCatch work handler m with
    | .ok a after => Q a after
    | .error failure after => E failure after
  delta EStateM.tryCatch
  -- the handler begins in the state that the failure has left
  cases worked : work m with
  | ok a after =>
    rw [worked] at done
    exact done
  | error failure after =>
    rw [worked] at done
    exact behind failure after done

theorem Ensures.mono {action : Action σ α} {P' : Machine σ → Prop}
    {Q' : α → Machine σ → Prop} {E' : Failure → Machine σ → Prop}
    (ensures : Ensures P action Q E) (stronger : ∀ m, P' m → P m)
    (weaker : ∀ a m, Q a m → Q' a m)
    (weakerFail : ∀ failure m, E failure m → E' failure m) :
    Ensures P' action Q' E' := by
  intro m holds
  have done := ensures m (stronger m holds)
  cases ran : action m with
  | ok a after =>
    rw [ran] at done
    exact weaker a after done
  | error failure after =>
    rw [ran] at done
    exact weakerFail failure after done

/-- What every action of a list keeps, the whole list keeps. -/
theorem Ensures.forM {items : List β} {act : β → Action σ PUnit}
    (each : ∀ item, Ensures P (act item) (fun _ => P) E) :
    Ensures P (items.forM act) (fun _ => P) E := by
  induction items with
  | nil => exact .pure fun _ holds => holds
  | cons item rest ih =>
    show Ensures P (act item >>= fun _ => rest.forM act) (fun _ => P) E
    exact .bind (each item) fun _ => ih

end Rules

/-! ## Kept properties -/

/-- The action keeps the property, whether it succeeds or fails. -/
structure Keeps (P : Machine σ → Prop) (action : Action σ α) : Prop where
  ensures : Ensures P action (fun _ => P) fun _ => P

section Kept

variable {P : Machine σ → Prop}

theorem Keeps.pure (a : α) : Keeps P (pure a : Action σ α) :=
  ⟨.pure fun _ holds => holds⟩

theorem Keeps.throw (failure : Failure) : Keeps P (throw failure : Action σ α) :=
  ⟨.throw fun _ holds => holds⟩

theorem Keeps.modify {f : Machine σ → Machine σ} (kept : ∀ m, P m → P (f m)) :
    Keeps P (modify f : Action σ Unit) :=
  ⟨.modify kept⟩

theorem Keeps.bind {first : Action σ α} {next : α → Action σ β} (before : Keeps P first)
    (behind : ∀ a, Keeps P (next a)) : Keeps P (first >>= next) :=
  ⟨.bind before.ensures fun a => (behind a).ensures⟩

theorem Keeps.get {next : Machine σ → Action σ α} (behind : ∀ m, Keeps P (next m)) :
    Keeps P (get >>= next) :=
  ⟨fun m holds => (behind m).ensures m holds⟩

theorem Keeps.discard {action : Action σ α} (keeps : Keeps P action) :
    Keeps P (discard action : Action σ PUnit) := by
  show Keeps P (action >>= fun _ => Pure.pure PUnit.unit)
  exact keeps.bind fun _ => .pure _

theorem Keeps.forM {items : List β} {act : β → Action σ PUnit} (each : ∀ item, Keeps P (act item)) :
    Keeps P (items.forM act) :=
  ⟨.forM fun item => (each item).ensures⟩

theorem Keeps.tryCatch {work : Action σ α} {handler : Failure → Action σ α} (before : Keeps P work)
    (behind : ∀ failure, Keeps P (handler failure)) : Keeps P (tryCatch work handler) :=
  ⟨.tryCatch before.ensures fun failure => (behind failure).ensures⟩

/-- Telling the listeners keeps the property if the display that is told and the observers keep it. -/
theorem keeps_tellListeners {env : Env σ} {address : Int} {value : UInt8}
    (notify : ∀ hook, Keeps P (env.notify hook (.display address value)))
    (shown : ∀ m display, P m → P { m with display }) : Keeps P (tellListeners env address value) := by
  refine .get fun m => .forM fun listener => ?_
  cases listener with
  | display => exact .modify fun m holds => shown m _ holds
  | hook hook => exact notify hook

/-! ### Ports -/

/-- The property has nothing to do with the devices and the operator, and what is written down does not
matter for it. -/
structure Central (P : Machine σ → Prop) : Prop where
  keeps : ∀ m devices operator journal, P m → P { m with devices, operator, journal }

variable (central : Central P)
include central

theorem Central.record (level : Journal.Level) (part : Journal.Part) (text : String) :
    Keeps P (record level part text : Action σ Unit) :=
  .modify fun m holds => central.keeps m _ _ (_ :: m.journal) holds

theorem Central.modifyDevices (f : Devices → Devices) : Keeps P (modifyDevices f : Action σ Unit) :=
  .modify fun m holds => central.keeps m (f m.devices) _ _ holds

theorem Central.press (key : Key) : Keeps P (press key : Action σ Bool) := by
  unfold Machine.press
  split
  · exact .throw _
  · next code _ =>
    refine .get fun m => ?_
    -- whatever the keyboard makes of the key, it is only a device
    generalize m.devices.keyboard.press code = outcome
    refine .bind (central.modifyDevices _) fun _ => ?_
    cases outcome.1 with
    | true => exact .bind (.pure _) fun _ => .pure _
    | false => exact .bind (central.record _ _ _) fun _ => .pure _

theorem Central.takeKey : Keeps P (takeKey : Action σ UInt8) := by
  refine .get fun m => ?_
  split
  · exact .throw _
  · refine .bind (central.modifyDevices _) fun _ => ?_
    split
    · exact .pure _
    · exact .throw _

theorem Central.readKey : Keeps P (readKey : Action σ UInt8) := by
  refine .get fun m => ?_
  cases m.devices.keyboard.pending with
  | true => exact central.takeKey
  | false =>
    -- without a pending key the operator is asked for one, or the read is given up
    cases m.operator.feed with
    | cons key rest =>
      refine .bind (.modify fun m holds => central.keeps m _ _ _ holds) fun _ => ?_
      exact .bind (central.press key).discard fun _ => central.takeKey
    | nil =>
      cases m.operator.patience with
      | abort => exact .bind (central.modifyDevices _) fun _ => central.takeKey
      | wait => exact central.takeKey

theorem Central.setBurner (on : Bool) : Keeps P (setBurner on : Action σ Unit) :=
  .bind (central.modifyDevices _) fun _ => central.record _ _ _

/-- **Reading a port keeps the property** if the attached devices do. -/
theorem Central.readPort {env : Env σ} (answer : ∀ hook port, Keeps P (env.answer hook port))
    (port : Int) : Keeps P (readPort env port) := by
  refine .get fun m => ?_
  split
  · exact .pure _
  · exact central.readKey
  · exact .pure _
  · exact .bind (answer _ _) fun _ => .pure _

section Notify

variable {env : Env σ} (notify : ∀ hook notice, Keeps P (env.notify hook notice))
include notify

theorem Central.updateLights (value : Int) : Keeps P (updateLights env value) := by
  refine .get fun m => .bind (central.modifyDevices _) fun _ => ?_
  split
  · exact .get fun now => .forM fun hook => .get fun _ => notify hook _
  · exact .pure _

theorem Central.deliver (port : Int) (value : UInt8) (writer : Option Writer) :
    Keeps P (deliver env port value writer) := by
  unfold Machine.deliver
  split
  · exact central.updateLights notify _
  · exact central.setBurner _
  · exact notify _ _
  · exact central.record _ _ _

/-- **Writing a port keeps the property** if whoever is told of it does. -/
theorem Central.writePort (port value : Int) : Keeps P (writePort env port value) :=
  .get fun _ => .bind (central.deliver notify _ _ _) fun _ =>
    .get fun _ => .forM fun hook => notify hook _

end Notify

end Kept

/-! ## Quiet actions -/

/-- The machine has this processor and this memory. -/
def Core (cpu : Processor) (memory : Memory) (m : Machine σ) : Prop :=
  m.cpu = cpu ∧ m.memory = memory

/-- The action leaves processor and memory alone, whether it succeeds or fails. -/
def Quiet (action : Action σ α) : Prop :=
  ∀ cpu memory, Ensures (Core cpu memory) action (fun _ => Core cpu memory)
    (fun _ => Core cpu memory)

theorem Quiet.pure (a : α) : Quiet (pure a : Action σ α) :=
  fun _ _ => .pure fun _ same => same

theorem Quiet.throw (failure : Failure) : Quiet (throw failure : Action σ α) :=
  fun _ _ => .throw fun _ same => same

theorem Quiet.get : Quiet (get : Action σ (Machine σ)) :=
  fun _ _ _ same => same

theorem Quiet.bind {first : Action σ α} {next : α → Action σ β} (quiet : Quiet first)
    (behind : ∀ a, Quiet (next a)) : Quiet (first >>= next) :=
  fun cpu memory => .bind (quiet cpu memory) fun a => behind a cpu memory

theorem Quiet.forM {items : List β} {act : β → Action σ PUnit} (each : ∀ item, Quiet (act item)) :
    Quiet (items.forM act) :=
  fun cpu memory => .forM fun item => each item cpu memory

/-- **A quiet action keeps** every condition on processor and memory. -/
theorem Quiet.keeps {action : Action σ α} {P : Processor → Memory → Prop} (quiet : Quiet action) :
    Ensures (fun m => P m.cpu m.memory) action (fun _ m => P m.cpu m.memory)
      (fun _ m => P m.cpu m.memory) := by
  intro m holds
  -- quiet for this very processor and memory, so the condition can be carried over
  have same := quiet m.cpu m.memory m ⟨rfl, rfl⟩
  cases ran : action m with
  | ok a after =>
    rw [ran] at same
    obtain ⟨cpu, memory⟩ : Core m.cpu m.memory after := same
    show P after.cpu after.memory
    rwa [cpu, memory]
  | error failure after =>
    rw [ran] at same
    obtain ⟨cpu, memory⟩ : Core m.cpu m.memory after := same
    show P after.cpu after.memory
    rwa [cpu, memory]

end Machine

/-- Observers and attached devices that leave processor and memory alone. They may do anything else,
and fail in any way. -/
structure Env.Bystander {σ : Type} (env : Env σ) : Prop where
  notify : ∀ hook notice, Machine.Quiet (env.notify hook notice)
  answer : ∀ hook port, Machine.Quiet (env.answer hook port)

namespace Machine

/-! ## Ports and listeners -/

variable {σ : Type} {cpu : Processor} {memory : Memory}

theorem central_core : Central (Core cpu memory : Machine σ → Prop) where
  keeps := fun _ _ _ _ core => core

theorem quiet_record (level : Journal.Level) (part : Journal.Part) (text : String) :
    Quiet (record level part text : Action σ Unit) :=
  fun _ _ => (central_core.record level part text).ensures

theorem quiet_readKey : Quiet (readKey : Action σ UInt8) :=
  fun _ _ => central_core.readKey.ensures

section Bystander

variable {env : Env σ} (bystander : env.Bystander)
include bystander

/-- **Reading a port is quiet.** -/
theorem quiet_readPort (port : Int) : Quiet (readPort env port) :=
  fun cpu memory => (central_core.readPort (fun hook port => ⟨bystander.answer hook port cpu memory⟩)
    port).ensures

/-- **Writing a port is quiet.** -/
theorem quiet_writePort (port value : Int) : Quiet (writePort env port value) :=
  fun cpu memory => (central_core.writePort (fun hook notice =>
    ⟨bystander.notify hook notice cpu memory⟩) port value).ensures

theorem quiet_tellListeners (address : Int) (value : UInt8) :
    Quiet (tellListeners env address value) :=
  fun cpu memory => (keeps_tellListeners (fun hook => ⟨bystander.notify hook _ cpu memory⟩)
    fun _ _ core => core).ensures

end Bystander

end Machine

end EightBit
