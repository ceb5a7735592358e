import EightBit.Proofs.Machine.Execution
import EightBit.Proofs.Machine.History
import EightBit.Proofs.Machine.Keeping
import Mathlib.Data.List.Chain
import Mathlib.Data.List.Induction
import Mathlib.Data.List.Infix

/-!
# What Can Be Seen of the Lights

An observer of the lights is told what they were and what they have become. One that was there from the start
can tell by this what the lights are, as long as it is told of every change.

A reset puts the latch back and tells nobody. If the lights were not as they are at power-on, the observer is
wrong about them from then on. No later call puts this right: the next change that it is told of does not go on
where the one before has ended, and until then what it has seen last is not how the lights are.

## Main Definitions

- `Lights.Change`: what an observer of the lights is told.
- `Lights.Followed`: the changes go on from each other, and lead to the lights as they are.
- `Lights.Call`: what can be done to the lights.
- `Env.Follows`: the first observer of the lights records what it is told, and does nothing else.

## Main Statements

- `Lights.followed_viewAfter_iff`: the lights can be followed exactly if every reset finds them as at power-on.
- `Lights.followed_iff_of_calls`: the same for all calls on a machine, with what each call adds.
-/

namespace EightBit

namespace Lights

/-! ## Changes -/

/-- A change that an observer is told of: what the lights were and what they have become. -/
structure Change where
  old : UInt8
  new : UInt8
  deriving DecidableEq, Repr

/-- What the lights are, by the last change. -/
def latest (changes : List Change) : UInt8 :=
  (changes.getLast?.map Change.new).getD lightsPowerOn

@[simp] theorem latest_concat (changes : List Change) (change : Change) :
    latest (changes ++ [change]) = change.new := by
  rw [latest, List.getLast?_concat]
  rfl

/-- **Every change goes on from the one before**, and the first one from power-on. -/
structure Linked (changes : List Change) : Prop where
  first : ∀ change ∈ changes.head?, change.old = lightsPowerOn
  chain : changes.IsChain fun before after => after.old = before.new

theorem linked_nil : Linked [] :=
  ⟨fun _ none => (nomatch none), .nil⟩

/-- One more change has to go on from where the others lead to. -/
theorem linked_concat (changes : List Change) (change : Change) :
    Linked (changes ++ [change]) ↔ Linked changes ∧ change.old = latest changes := by
  -- the last change is linked to the one before it, or to the state at power on
  cases changes using List.reverseRecOn with
  | nil =>
    constructor
    · intro linked
      exact ⟨linked_nil, linked.first change rfl⟩
    · intro ⟨_, goesOn⟩
      refine ⟨fun only same => ?_, .singleton _⟩
      cases same
      exact goesOn
  | append_singleton front last =>
    -- a change behind others does not change the first one
    have head : (front ++ [last] ++ [change]).head? = (front ++ [last]).head? :=
      List.head?_append_of_ne_nil _ (List.concat_ne_nil _ _)
    have behind : (∀ x ∈ (front ++ [last]).getLast?, ∀ y ∈ [change].head?, y.old = x.new) ↔
        change.old = last.new := by
      simp
    rw [latest_concat]
    constructor
    · intro linked
      obtain ⟨chain, _, goesOn⟩ := List.isChain_append.1 linked.chain
      exact ⟨⟨head ▸ linked.first, chain⟩, behind.1 goesOn⟩
    · intro ⟨linked, goesOn⟩
      exact ⟨head ▸ linked.first, linked.chain.append (.singleton _) (behind.2 goesOn)⟩

/-- **The changes lead to the lights** as they are. -/
structure Followed (changes : List Change) (state : UInt8) : Prop extends Linked changes where
  reached : latest changes = state

theorem followed_concat (changes : List Change) (old new : UInt8) :
    Followed (changes ++ [⟨old, new⟩]) new ↔ Followed changes old := by
  constructor
  · intro followed
    obtain ⟨linked, goesOn⟩ := (linked_concat ..).1 followed.toLinked
    exact ⟨linked, goesOn.symm⟩
  · intro followed
    exact ⟨(linked_concat ..).2 ⟨followed.toLinked, followed.reached.symm⟩, latest_concat ..⟩

/-! ## Calls -/

/-- What can be done to the lights. -/
inductive Call
  | update (value : Int)
  /-- Writes a value to the port of the lights. -/
  | write (value : Int)
  | reset
  deriving DecidableEq, Repr

/-- The lights, with the changes that an observer has been told of since power-on. -/
structure View where
  state : UInt8 := lightsPowerOn
  changes : List Change := []

namespace Call

variable {σ : Type}

/-- What is done to the machine. -/
def perform (env : Env σ) : Call → Action σ Unit
  | update value => Machine.updateLights env value
  | write value => Machine.writePort env lightsPort value
  | reset => Machine.modifyDevices fun devices => { devices with lights := {} }

/-- What the lights are after the call. -/
def target : Call → UInt8
  | update value | write value => Bits.toByte value
  | reset => lightsPowerOn

/-- **What the call tells an observer**, the lights being in some state: of a change, unless it is a reset. -/
def told (call : Call) (state : UInt8) : List Change :=
  if call = .reset ∨ state = call.target then [] else [⟨state, call.target⟩]

/-- What becomes of the lights and of what an observer has been told. -/
def next (call : Call) (view : View) : View where
  state := call.target
  changes := view.changes ++ call.told view.state

end Call

/-- What calls make of the lights since power-on, and of what an observer has been told. -/
def viewAfter (calls : List Call) : View :=
  calls.foldl (fun view (call : Call) => call.next view) {}

theorem viewAfter_concat (calls : List Call) (call : Call) :
    viewAfter (calls ++ [call]) = call.next (viewAfter calls) :=
  List.foldl_append

/-- Nobody is told of a change that is none. -/
theorem ne_of_mem_told {call : Call} {state : UInt8} {change : Change}
    (told : change ∈ call.told state) : change.old ≠ change.new := by
  rw [Call.told] at told
  split at told
  · cases told
  · next changes =>
    cases List.mem_singleton.1 told
    exact (not_or.1 changes).2

theorem ne_of_mem_viewAfter {calls : List Call} {change : Change}
    (told : change ∈ (viewAfter calls).changes) : change.old ≠ change.new := by
  induction calls using List.reverseRecOn with
  | nil => cases told
  | append_singleton calls call ih =>
    rw [viewAfter_concat] at told
    cases List.mem_append.1 told with
    | inl before => exact ih before
    | inr now => exact ne_of_mem_told now

/-- An observer that is wrong about the lights has missed a reset, and no change since. -/
theorem latest_viewAfter (calls : List Call) :
    latest (viewAfter calls).changes = (viewAfter calls).state ∨
      (viewAfter calls).state = lightsPowerOn := by
  -- the last call decides: either it tells its change, or it tells nothing
  induction calls using List.reverseRecOn with
  | nil => exact .inl rfl
  | append_singleton calls call ih =>
    rw [viewAfter_concat, Call.next]
    show latest (_ ++ call.told _) = call.target ∨ call.target = lightsPowerOn
    rw [Call.told]
    split
    · next silent =>
      rw [List.append_nil]
      cases silent with
      -- it tells nothing if it is a reset, or if the state is the one that it sets
      | inl reset => exact .inr (reset ▸ rfl)
      | inr same => exact same ▸ ih
    · exact .inl (latest_concat ..)

/-- One more call keeps the lights followed, unless it is a reset that changes them. -/
theorem followed_next (calls : List Call) (call : Call) :
    Followed (viewAfter (calls ++ [call])).changes (viewAfter (calls ++ [call])).state ↔
      Followed (viewAfter calls).changes (viewAfter calls).state ∧
        (call = .reset → (viewAfter calls).state = lightsPowerOn) := by
  rw [viewAfter_concat, Call.next]
  -- a call that tells nothing is a reset, or leaves the lights as they are
  show Followed (_ ++ call.told _) call.target ↔ _
  rw [Call.told]
  split
  · next silent =>
    rw [List.append_nil]
    by_cases reset : call = .reset
    · subst reset
      show Followed _ lightsPowerOn ↔ _
      constructor
      · intro followed
        -- what has been seen leads to power-on by chance, if the lights were not there already
        have there : (viewAfter calls).state = lightsPowerOn :=
          (latest_viewAfter calls).elim (fun right => right.symm.trans followed.reached) id
        rw [there]
        exact ⟨followed, fun _ => rfl⟩
      · intro ⟨followed, there⟩
        exact there rfl ▸ followed
    · rw [← silent.resolve_left reset]
      exact (and_iff_left fun is => absurd is reset).symm
  · next changed =>
    rw [followed_concat]
    exact (and_iff_left fun is => absurd is (not_or.1 changed).1).symm

/-- **The lights can be followed exactly if every reset finds them as at power-on.** -/
theorem followed_viewAfter_iff (calls : List Call) :
    Followed (viewAfter calls).changes (viewAfter calls).state ↔
      ∀ before, before ++ [.reset] <+: calls → (viewAfter before).state = lightsPowerOn := by
  -- every reset but the last is in the list already, so that only the last call is to be looked at
  induction calls using List.reverseRecOn with
  | nil =>
    refine iff_of_true ⟨linked_nil, rfl⟩ fun before reset => ?_
    exact absurd (List.prefix_nil.1 reset) (List.concat_ne_nil _ _)
  | append_singleton calls call ih =>
    rw [followed_next, ih]
    constructor
    · intro ⟨earlier, last⟩ before reset
      -- a prefix of the longer list is the whole of it, or one of the shorter list
      cases List.prefix_concat_iff.1 reset with
      | inl whole =>
        obtain ⟨same, is⟩ := List.append_inj' whole rfl
        cases same
        exact last (List.singleton_inj.1 is).symm
      | inr inside => exact earlier before inside
    · intro each
      refine ⟨fun before reset => each before (reset.trans (List.prefix_append ..)), fun is => ?_⟩
      exact each calls (is ▸ List.prefix_rfl)

end Lights

/-! ## The lights of a machine -/

open Lights in
/-- The observer of the lights that was there first, those that came later, and what the first one has recorded. -/
structure Watch (σ : Type) where
  recorder : Hook
  later : List Hook
  seen : σ → List Change

/-- The lights of the machine take what is written to their port, and the recorder has seen these changes. -/
structure Watch.Shows {σ : Type} (watch : Watch σ) (view : Lights.View) (m : Machine σ) : Prop where
  state : m.devices.lights.state = view.state
  writer : m.bus.writer? lightsPort = some .lights
  taps : m.observers.lampTaps = watch.recorder :: watch.later
  seen : watch.seen m.notes = view.changes

/-- **The recorder does nothing but record.** Later observers of the lights, and those of their port, leave the
lights alone, and what was recorded. They may do anything else, and fail in any way. -/
structure Env.Follows {σ : Type} (env : Env σ) (watch : Watch σ) : Prop where
  records : ∀ old new m, ∃ notes, env.notify watch.recorder (.lights old new) m = .ok () { m with notes } ∧
    watch.seen notes = watch.seen m.notes ++ [⟨old, new⟩]
  later : ∀ hook ∈ watch.later, ∀ old new view,
    Machine.Keeps (watch.Shows view) (env.notify hook (.lights old new))
  taps : ∀ hook value view, Machine.Keeps (watch.Shows view) (env.notify hook (.out lightsPort value))

namespace Machine

variable {σ β : Type} {P : Machine σ → Prop} {E : Failure → Machine σ → Prop}

/-- What the action keeps for every item of the list, the whole list keeps. -/
theorem Ensures.forM_of_mem {items : List β} {act : β → Action σ PUnit}
    (each : ∀ item ∈ items, Ensures P (act item) (fun _ => P) E) :
    Ensures P (items.forM act) (fun _ => P) E := by
  induction items with
  | nil => exact .pure fun _ holds => holds
  | cons item rest ih =>
    show Ensures P (act item >>= fun _ => rest.forM act) (fun _ => P) E
    exact .bind (each item List.mem_cons_self) fun _ =>
      ih fun other among => each other (List.mem_cons_of_mem _ among)

end Machine

namespace Lights

open Machine

variable {σ : Type} {env : Env σ} {watch : Watch σ}

/-- The recorder is told how the lights are by now. -/
theorem ensures_tellLights (follows : env.Follows watch) (old : UInt8) (view : View)
    {E : Failure → Machine σ → Prop} :
    Ensures (watch.Shows view) (tellLights env old watch.recorder)
      (fun _ => watch.Shows ⟨view.state, view.changes ++ [⟨old, view.state⟩]⟩) E := by
  intro m shows
  obtain ⟨notes, told, seen⟩ := follows.records old m.devices.lights.state m
  have ran : tellLights env old watch.recorder m = .ok () { m with notes } := told
  rw [ran]
  rw [shows.seen, shows.state] at seen
  exact ⟨shows.state, shows.writer, shows.taps, seen⟩

/-- **Setting the lights** tells the recorder of a change, before anybody else can fail. -/
theorem ensures_updateLights (follows : env.Follows watch) (value : Int) (view : View) :
    Ensures (watch.Shows view) (updateLights env value)
      (fun _ => watch.Shows ((Call.update value).next view))
      fun _ => watch.Shows ((Call.update value).next view) := by
  have set {E : Failure → Machine σ → Prop} : Ensures (watch.Shows view)
      (modifyDevices fun devices => { devices with lights := ⟨Bits.toByte value⟩ } : Action σ Unit)
      (fun _ => watch.Shows ⟨Bits.toByte value, view.changes⟩) E :=
    .modify fun m shows => ⟨rfl, shows.writer, shows.taps, shows.seen⟩
  refine .get fun m shows => .of_eq shows (.bind set fun _ => ?_)
  rw [shows.state, Call.next, Call.told]
  show Ensures _ (if view.state ≠ Bits.toByte value then _ else _) _ _
  by_cases same : view.state = Bits.toByte value
  · rw [if_neg (not_not_intro same), if_pos (.inr same), List.append_nil]
    exact .pure fun _ shows => shows
  · rw [if_pos same, if_neg (by simp [Call.target, same])]
    refine .get fun now still => .of_eq still ?_
    rw [still.taps]
    -- the recorder is told before any other observer can fail
    exact .bind (ensures_tellLights follows view.state ⟨Bits.toByte value, view.changes⟩) fun _ =>
      .forM_of_mem fun hook among => .get fun later shows => .of_eq shows
        (follows.later hook among ..).ensures

/-- **What a call does to the lights**, and what the recorder gets to see of it. -/
theorem tracks_lights (follows : env.Follows watch) : Tracks (Call.perform env) Call.next watch.Shows := by
  -- each call against what it is to tell: an update, a write by the port, and a reset
  intro call view
  cases call with
  | update value => exact ensures_updateLights follows value view
  | write value =>
    refine .get fun m shows => .of_eq shows ?_
    rw [shows.writer]
    have taken : (Call.update (Bits.toByte value).toNat).next view = (Call.write value).next view := by
      simp [Call.next, Call.told, Call.target, Bits.toByte_toNat]
    rw [← taken]
    exact .bind (ensures_updateLights follows _ view) fun _ =>
      .get fun now still => .of_eq still (.forM fun hook => (follows.taps hook _ _).ensures)
  | reset =>
    refine .modify fun m shows => ⟨rfl, shows.writer, shows.taps, ?_⟩
    rw [Call.next, Call.told, if_pos (.inl rfl), List.append_nil]
    exact shows.seen

/-- **What an observer can tell of the lights.** Each call adds the change that it makes, unless it is a reset,
and never one that is none. So the lights can be followed exactly if every reset finds them as at power-on. -/
theorem followed_iff_of_calls (follows : env.Follows watch) {m : Machine σ} (powerOn : watch.Shows {} m)
    (calls : List Call) :
    (∀ call, (afterCalls (Call.perform env) (calls ++ [call]) m).devices.lights.state = call.target ∧
      watch.seen (afterCalls (Call.perform env) (calls ++ [call]) m).notes =
        watch.seen (afterCalls (Call.perform env) calls m).notes ++
          call.told (afterCalls (Call.perform env) calls m).devices.lights.state) ∧
      (∀ change ∈ watch.seen (afterCalls (Call.perform env) calls m).notes, change.old ≠ change.new) ∧
      (Followed (watch.seen (afterCalls (Call.perform env) calls m).notes)
          (afterCalls (Call.perform env) calls m).devices.lights.state ↔
        ∀ before, before ++ [.reset] <+: calls →
          (afterCalls (Call.perform env) before m).devices.lights.state = lightsPowerOn) := by
  have shows (calls : List Call) : watch.Shows (viewAfter calls) (afterCalls (Call.perform env) calls m) :=
    (tracks_lights follows).afterCalls calls powerOn
  refine ⟨fun call => ?_, ?_, ?_⟩
  · rw [(shows _).state, (shows _).seen, (shows _).seen, (shows _).state, viewAfter_concat]
    exact ⟨rfl, rfl⟩
  · rw [(shows _).seen]
    exact fun change told => ne_of_mem_viewAfter told
  · rw [(shows _).seen, (shows _).state, followed_viewAfter_iff]
    simp only [(shows _).state]

/-- Records every change of the lights. -/
def recording : Env (List Change) where
  notify := fun _ notice => match notice with
    | .lights old new => modify fun m => { m with notes := m.notes ++ [⟨old, new⟩] }
    | .watch .. | .display .. | .out .. | .write .. => pure ()
  answer := fun _ _ => pure 0

/-- The only observer, with all that it has recorded. -/
def onlyRecorder : Watch (List Change) :=
  ⟨0, [], id⟩

/-- A new simulator with an observer of its lights. -/
def watchedLights : Machine (List Change) :=
  { simulator [] with observers := { listeners := [.display], lampTaps := [0] } }

theorem follows_recording : recording.Follows onlyRecorder where
  records := fun _ _ _ => ⟨_, rfl, rfl⟩
  later := fun _ among => nomatch among
  taps := fun _ _ _ => .pure _

theorem shows_watchedLights : onlyRecorder.Shows {} watchedLights :=
  ⟨rfl, rfl, rfl, rfl⟩

/-- Switches the lights off and back again, puts one more byte in, and resets the lights as they are at power-on. -/
def followable : List Call :=
  [.write 0x100, .update 0xFC, .reset, .write 0x21]

theorem followed_iff_of_calls_followable :
    recording.Follows onlyRecorder ∧ onlyRecorder.Shows {} watchedLights ∧
      (afterCalls (Call.perform recording) followable watchedLights).notes =
        [⟨0xFC, 0⟩, ⟨0, 0xFC⟩, ⟨0xFC, 0x21⟩] ∧
      Followed (afterCalls (Call.perform recording) followable watchedLights).notes
        (afterCalls (Call.perform recording) followable watchedLights).devices.lights.state := by
  have calm : ∀ before ∈ followable.inits, before ++ [.reset] <+: followable →
      (afterCalls (Call.perform recording) before watchedLights).devices.lights.state = lightsPowerOn := by
    decide
  obtain ⟨_, _, followed⟩ := followed_iff_of_calls follows_recording shows_watchedLights followable
  refine ⟨follows_recording, shows_watchedLights, by decide, followed.2 fun before reset => ?_⟩
  exact calm before ((List.mem_inits ..).2 ((List.prefix_append ..).trans reset)) reset

/-- **A reset that changes the lights is not seen**: the lights are as at power-on, and all that an observer has
been told is that they were switched off. -/
theorem exists_not_followed :
    recording.Follows onlyRecorder ∧ onlyRecorder.Shows {} watchedLights ∧
      (afterCalls (Call.perform recording) [.update 0, .reset] watchedLights).notes = [⟨0xFC, 0⟩] ∧
      (afterCalls (Call.perform recording) [.update 0, .reset] watchedLights).devices.lights.state = 0xFC ∧
      ¬ Followed (afterCalls (Call.perform recording) [.update 0, .reset] watchedLights).notes
        (afterCalls (Call.perform recording) [.update 0, .reset] watchedLights).devices.lights.state := by
  refine ⟨follows_recording, shows_watchedLights, by decide, by decide, fun followed => ?_⟩
  exact absurd followed.reached (by decide)

end Lights

end EightBit
