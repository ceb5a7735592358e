import EightBit.Machine.Run

/-!
# Probes

A probe is an observer that writes down what it is told, and may then use one of the controls of
the machine, either every time or the n-th time it is told something. An attached source is a
device that answers reads of its port with a fixed value, or fails.

A control that a probe uses can wake the same probe again. Environments are therefore built up
from the bottom: at each depth, controls run in the environment of the depth below, and at depth
zero a probe fails.

## Main Definitions

- `Reaction`, `Attachment`: what probes and sources do.
- `Event`, `Notebook`: what they leave behind.
- `Probe.env`: the environment of all probes and sources, up to a depth of nesting.
-/

namespace EightBit

/-! ## Attachments -/

/-- What a probe does after it has written down what it was told. -/
inductive Reaction
  | nothing
  | stop
  /-- Runs one instruction. -/
  | run
  /-- Starts a run of one instruction. -/
  | start
  | reset
  | resetProcessor
  | assemble (source : List Char)
  | loadBinary (code : List UInt8)
  | press (key : Key)
  | fail (refusal : Refusal)
  deriving DecidableEq, Repr

/-- What was attached to a machine under some number. -/
inductive Attachment
  /-- An observer that reacts, each time or only the `turn`-th time; it has been told something
  `calls` times so far. -/
  | probe (reaction : Reaction) (turn : Option Nat) (calls : Nat)
  /-- A device that always answers with the same value. -/
  | source (value : Int)
  /-- A device that cannot be read. -/
  | broken (refusal : Refusal)
  deriving DecidableEq, Repr

/-- Something that happened at an attachment. -/
inductive Event
  /-- A probe was told something. -/
  | notice (notice : Notice)
  /-- A port was read. -/
  | read (port : Int)
  deriving DecidableEq, Repr

/-- What is attached, by number, and what has happened, the newest first. -/
structure Notebook where
  attachments : List Attachment := []
  events : List Event := []
  deriving DecidableEq, Repr

namespace Probe

/-! ## Behaviour -/

/-- Writes down an event. -/
def note (event : Event) : Action Notebook Unit :=
  modify fun m => { m with notes := { m.notes with events := event :: m.notes.events } }

/-- Counts a call of a probe: the reaction that is due. -/
def due (hook : Hook) : Action Notebook Reaction := do
  match (← get).notes.attachments[hook]? with
  | some (.probe reaction turn calls) =>
    modify fun m => { m with notes := { m.notes with
      attachments := m.notes.attachments.set hook (.probe reaction turn (calls + 1)) } }
    return if turn.all (· == calls + 1) then reaction else .nothing
  | _ => return .nothing

/-- Carries out a reaction, its controls running in the given environment. -/
def react (env : Env Notebook) (patience : Nat) : Reaction → Action Notebook Unit
  | .nothing => pure ()
  | .stop => Machine.requestStop
  | .run => discard (Machine.run env patience (some 1))
  | .start => discard (Machine.start env patience (some 1))
  | .reset => Machine.reset env
  | .resetProcessor => Machine.resetProcessor
  | .assemble source => discard (Machine.assemble (some digitLimit) source)
  | .loadBinary code => Machine.loadBinary code
  | .press key => discard (Machine.press key)
  | .fail refusal => Machine.refuse refusal

/-- The answer of a source. -/
def respond (hook : Hook) (port : Int) : Action Notebook Int := do
  note (.read port)
  match (← get).notes.attachments[hook]? with
  | some (.source value) => return value
  | some (.broken refusal) => Machine.refuse refusal
  | _ => return 0

/-- The refusal of a probe that is nested too deeply. -/
def tooDeep : Refusal :=
  .other "NestingLimit" "observers are nested too deeply"

/-- The environment of probes and sources, in which controls can be nested up to a depth. -/
def env (patience : Nat) : Nat → Env Notebook
  | 0 =>
    { notify := fun _ _ => Machine.refuse tooDeep
      answer := respond }
  | depth + 1 =>
    { notify := fun hook notice => do
        note (.notice notice)
        react (env patience depth) patience (← due hook)
      answer := respond }

/-! ## Attaching -/

/-- Attaches something, and gives its number. -/
def attach (attachment : Attachment) : Action Notebook Hook := do
  let hook := (← get).notes.attachments.length
  modify fun m => { m with notes := { m.notes with
    attachments := m.notes.attachments ++ [attachment] } }
  return hook

/-- Registers an observer. -/
def observe (attachment : Attachment) (register : Hook → Observers → Observers) :
    Action Notebook Unit := do
  let hook ← attach attachment
  modify fun m => { m with observers := register hook m.observers }

/-- Lets a probe watch an address. -/
def watch (address : Int) (probe : Attachment) : Action Notebook Unit :=
  observe probe fun hook o => { o with watchpoints := o.watchpoints ++ [(address, hook)] }

/-- Lets a probe listen to the display region. -/
def listen (probe : Attachment) : Action Notebook Unit :=
  observe probe fun hook o => { o with listeners := o.listeners ++ [.hook hook] }

/-- Lets a probe follow what is written to a port. -/
def tap (port : Int) (probe : Attachment) : Action Notebook Unit :=
  observe probe fun hook o => { o with writeTaps := o.writeTaps ++ [(port, hook)] }

/-- Lets a probe follow the lights. -/
def watchLights (probe : Attachment) : Action Notebook Unit :=
  observe probe fun hook o => { o with lampTaps := o.lampTaps ++ [hook] }

/-- Binds the reader of a port that exists to a source. -/
def bindReader (port : Int) (source : Attachment) : Action Notebook Unit := do
  if !Bus.isPort port then Machine.refuse (.portOutOfRange port)
  let hook ← attach source
  modify fun m => { m with bus := { m.bus with readers := (port, .hook hook) :: m.bus.readers } }

/-- Binds the writer of a port that exists to a probe. -/
def bindWriter (port : Int) (probe : Attachment) : Action Notebook Unit := do
  if !Bus.isPort port then Machine.refuse (.portOutOfRange port)
  let hook ← attach probe
  modify fun m => { m with bus := { m.bus with writers := (port, .hook hook) :: m.bus.writers } }

end Probe

end EightBit
