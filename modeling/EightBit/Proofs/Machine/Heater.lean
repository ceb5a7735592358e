import EightBit.Proofs.Machine.Comparison
import EightBit.Proofs.Machine.History
import EightBit.Proofs.Machine.Keeping
import EightBit.Proofs.Machine.Run
import Mathlib.Data.List.Induction

/-!
# The Rules of the Heater

A mark's bit says on which side of the mark the thermometer has last been for certain. Near the mark, between
the two edges of a band, the bit cannot be told from the level; there it stays what it was when the level came
into the band. Outside of the band it can be told, whatever has happened before.

The level moves in one direction while the burner is not switched, so several ticks that end inside of a band
have crossed no edge but the one where they came in.

## Main Definitions

- `Heater.Fits`: a mark's bit and a level go together.
- `Heater.Call`: what can be done to the heater.
- `Heater.lastCommand`: the last command to the burner since the last reset.
- `Heater.Regular`, `Heater.Steady`: the rules of the heater, and those from one call to the next.

## Main Statements

- `Heater.fits_switch`: after a tick a bit fits the level, whatever it was.
- `Heater.ticks_between`: ticks that end inside of a band leave the bit alone.
- `Heater.regular_of_calls`: all calls, in any order, keep the rules.
-/

namespace EightBit

namespace Heater

/-! ## Marks -/

/-- A bit that is set goes with every level that is not colder than the mark's band, and one that is not with
every level that is not warmer. -/
def Fits (mark level : Int) (reached : Bool) : Prop :=
  if reached then level ≤ mark + hysteresis else mark - hysteresis ≤ level

/-- **After a tick a bit fits the level**, whatever it was before. -/
theorem fits_switch (mark level : Int) (reached : Bool) :
    Fits mark level (switch mark level reached) := by
  rw [Fits, switch]
  split
  -- far above the mark, far below, and in between, where the mark stays as it was
  · next warm =>
    rw [if_pos rfl]
    simp only [hysteresis] at warm ⊢
    omega
  · next notWarm =>
    split
    · exact Int.not_lt.1 notWarm
    · next notCold =>
      cases reached with
      | true => exact Int.not_lt.1 notCold
      | false => exact Int.not_lt.1 notWarm

/-! ## Ticks -/

theorem ticks_add (m n : Nat) (heater : Heater) : ticks (m + n) heater = ticks n (ticks m heater) := by
  induction m generalizing heater with
  | zero => rw [Nat.zero_add, ticks]
  | succ m ih =>
    rw [Nat.succ_add, ticks, ticks]
    exact ih heater.tick

@[simp] theorem burner_ticks (n : Nat) (heater : Heater) : (ticks n heater).burner = heater.burner := by
  induction n generalizing heater with
  | zero => rfl
  | succ n ih => exact ih heater.tick

/-- While the burner is on it does not get colder. -/
theorem level_ticks_le {heater : Heater} (on : heater.burner = true) (n : Nat) :
    (ticks n heater).level ≤ heater.level := by
  induction n generalizing heater with
  | zero => exact Int.le_refl _
  | succ n ih =>
    -- a burner that is on never lets the level rise
    have first : heater.nextLevel ≤ heater.level := by
      rw [nextLevel, if_pos on]
      split <;> omega
    exact (ih (show heater.tick.burner = true from on)).trans first

/-- While it is off it does not get warmer. -/
theorem le_level_ticks {heater : Heater} (off : heater.burner = false) (n : Nat) :
    heater.level ≤ (ticks n heater).level := by
  induction n generalizing heater with
  | zero => exact Int.le_refl _
  | succ n ih =>
    -- a burner that is off never lets the level fall
    have first : heater.level ≤ heater.nextLevel := by
      rw [nextLevel, if_neg (by simp [off])]
      split <;> omega
    exact first.trans (ih (show heater.tick.burner = false from off))

/-- **Ticks that end inside of a band leave its bit alone**, if the bit fitted the level. The bit is any that
follows the mark. -/
theorem ticks_between {mark : Int} {bit : Heater → Bool}
    (follows : ∀ heater : Heater, bit heater.tick = switch mark heater.nextLevel (bit heater)) (n : Nat)
    {heater : Heater} (fits : Fits mark heater.level (bit heater))
    (notWarm : mark - hysteresis ≤ (ticks n heater).level)
    (notCold : (ticks n heater).level ≤ mark + hysteresis) : bit (ticks n heater) = bit heater := by
  induction n generalizing heater with
  | zero => rfl
  | succ n ih =>
    have fitsNext : Fits mark heater.tick.level (bit heater.tick) := by
      rw [follows]
      exact fits_switch ..
    rw [ticks, ih fitsNext notWarm notCold, follows, switch]
    -- the first tick crosses no edge, or the level would not be back
    split
    · next warm =>
      cases burner : heater.burner with
      | true =>
        have colder : (ticks n heater.tick).level ≤ heater.nextLevel :=
          level_ticks_le (show heater.tick.burner = true from burner) n
        exact absurd (Int.lt_of_le_of_lt colder warm) (Int.not_lt.2 notWarm)
      | false =>
        have warmer : heater.level ≤ heater.nextLevel := le_level_ticks burner 1
        cases reached : bit heater with
        | true => rfl
        | false =>
          rw [Fits, reached, if_neg Bool.false_ne_true] at fits
          exact absurd (Int.lt_of_le_of_lt warmer warm) (Int.not_lt.2 fits)
    · split
      · next cold =>
        cases burner : heater.burner with
        | true =>
          have colder : heater.nextLevel ≤ heater.level := level_ticks_le burner 1
          cases reached : bit heater with
          | false => rfl
          | true =>
            rw [Fits, reached, if_pos rfl] at fits
            exact absurd (Int.lt_of_lt_of_le cold colder) (Int.not_lt.2 fits)
        | false =>
          have warmer : heater.nextLevel ≤ (ticks n heater.tick).level :=
            le_level_ticks (show heater.tick.burner = false from burner) n
          exact absurd (Int.lt_of_lt_of_le cold warmer) (Int.not_lt.2 notCold)
      · rfl

/-! ## The invariant -/

/-- The level is on the scale, and the bits of both marks fit it. -/
structure Sound (heater : Heater) : Prop where
  scale : hotLevel ≤ heater.level ∧ heater.level ≤ coldLevel
  fits15 : Fits mark15 heater.level heater.reached15
  fits20 : Fits mark20 heater.level heater.reached20

theorem sound_new : Sound {} := by
  refine ⟨?_, ?_, ?_⟩
  · decide
  · show mark15 - hysteresis ≤ coldLevel
    decide
  · show mark20 - hysteresis ≤ coldLevel
    decide

theorem Sound.tick {heater : Heater} (sound : Sound heater) : Sound heater.tick where
  scale := by
    show hotLevel ≤ heater.nextLevel ∧ heater.nextLevel ≤ coldLevel
    obtain ⟨hot, cold⟩ := sound.scale
    rw [nextLevel]
    -- the level moves by one, and at either end of the scale it stays
    split <;> split <;> omega
  fits15 := fits_switch ..
  fits20 := fits_switch ..

theorem Sound.ticks {heater : Heater} (sound : Sound heater) (n : Nat) : Sound (ticks n heater) := by
  induction n generalizing heater with
  | zero => exact sound
  | succ n ih => exact ih sound.tick

theorem Sound.setBurner {heater : Heater} (sound : Sound heater) (on : Bool) :
    Sound (heater.setBurner on) :=
  ⟨sound.scale, sound.fits15, sound.fits20⟩

/-! ## Status bits -/

theorem bit_seven_status (heater : Heater) : Bits.bit 7 heater.status.toNat = heater.burner := by
  rw [status]
  cases heater.burner <;> cases heater.reached20 <;> cases heater.reached15 <;> decide

theorem bit_one_status (heater : Heater) : Bits.bit 1 heater.status.toNat = heater.reached20 := by
  rw [status]
  cases heater.burner <;> cases heater.reached20 <;> cases heater.reached15 <;> decide

theorem bit_zero_status (heater : Heater) : Bits.bit 0 heater.status.toNat = heater.reached15 := by
  rw [status]
  cases heater.burner <;> cases heater.reached20 <;> cases heater.reached15 <;> decide

/-- The other bits are not used. -/
theorem status_unused (heater : Heater) : heater.status &&& 0b01111100 = 0 := by
  rw [status]
  cases heater.burner <;> cases heater.reached20 <;> cases heater.reached15 <;> decide

/-! ## Calls -/

/-- What can be done to the heater. -/
inductive Call
  | setBurner (on : Bool)
  /-- Writes a value to the heater's port. -/
  | write (value : Int)
  /-- Lets so much time go by; no time, if the count is negative. -/
  | tick (count : Int)
  | reset
  deriving DecidableEq, Repr

namespace Call

variable {σ : Type}

/-- What is done to the machine. -/
def perform (env : Env σ) : Call → Action σ Unit
  | setBurner on => Machine.setBurner on
  | write value => Machine.writePort env heaterPort value
  | tick count => Machine.modifyDevices fun devices =>
    { devices with heater := ticks count.toNat devices.heater }
  | reset => Machine.modifyDevices fun devices => { devices with heater := {} }

/-- What becomes of the heater. -/
def next : Call → Heater → Heater
  | setBurner on, heater => heater.setBurner on
  | write value, heater => heater.setBurner (Bits.bit 7 value)
  | tick count, heater => ticks count.toNat heater
  | reset, _ => {}

/-- The command that the call gives to the burner. -/
def command? : Call → Option Bool
  | setBurner on => some on
  | write value => some (Bits.bit 7 value)
  | tick _ | reset => none

end Call

/-- **The last command to the burner** since the last reset. Before the first one the burner is off. -/
def lastCommand (calls : List Call) : Bool :=
  ((calls.reverse.takeWhile (· ≠ .reset)).findSome? Call.command?).getD false

/-- Behind a reset nothing of what was before counts. -/
theorem lastCommand_concat (calls : List Call) (call : Call) : lastCommand (calls ++ [call]) =
    if call = .reset then false else call.command?.getD (lastCommand calls) := by
  rw [lastCommand, List.reverse_concat]
  cases call with
  | reset => rfl
  | setBurner on => rfl
  | write value => rfl
  | tick count => rfl

/-- The heater keeps its invariant, and its burner the last command. -/
theorem sound_foldl (calls : List Call) :
    Sound (calls.foldl (fun heater (call : Call) => call.next heater) {}) ∧
      (calls.foldl (fun heater (call : Call) => call.next heater) {}).burner = lastCommand calls := by
  -- from the last call backwards, since the last command is the one that counts
  induction calls using List.reverseRecOn with
  | nil => exact ⟨sound_new, rfl⟩
  | append_singleton calls call ih =>
    obtain ⟨sound, burner⟩ := ih
    rw [List.foldl_append, lastCommand_concat]
    cases call with
    | setBurner on => exact ⟨sound.setBurner on, rfl⟩
    | write value => exact ⟨sound.setBurner _, rfl⟩
    | tick count => exact ⟨sound.ticks _, (burner_ticks _ _).trans burner⟩
    | reset => exact ⟨sound_new, rfl⟩

/-! ## Rules -/

/-- **The rules of the heater**, `last` being the last command to its burner. -/
structure Regular (last : Bool) (heater : Heater) : Prop where
  scale : 15 ≤ heater.level ∧ heater.level ≤ 130
  unused : heater.status &&& 0b01111100 = 0
  burner : Bits.bit 7 heater.status.toNat = last
  reached15 : Bits.bit 0 heater.status.toNat = true → heater.level ≤ 108
  missed15 : Bits.bit 0 heater.status.toNat = false → 102 ≤ heater.level
  reached20 : Bits.bit 1 heater.status.toNat = true → heater.level ≤ 84
  missed20 : Bits.bit 1 heater.status.toNat = false → 78 ≤ heater.level
  ordered : Bits.bit 1 heater.status.toNat = true → Bits.bit 0 heater.status.toNat = true

theorem Fits.le {mark level : Int} {reached : Bool} (fits : Fits mark level reached)
    (set : reached = true) : level ≤ mark + hysteresis := by
  rwa [Fits, if_pos set] at fits

theorem Fits.ge {mark level : Int} {reached : Bool} (fits : Fits mark level reached)
    (clear : reached = false) : mark - hysteresis ≤ level := by
  rwa [Fits, if_neg (by simp [clear])] at fits

theorem Sound.regular {heater : Heater} (sound : Sound heater) : Regular heater.burner heater where
  scale := sound.scale
  unused := status_unused heater
  burner := bit_seven_status heater
  reached15 := by
    rw [bit_zero_status]
    exact sound.fits15.le
  missed15 := by
    rw [bit_zero_status]
    exact sound.fits15.ge
  reached20 := by
    rw [bit_one_status]
    exact sound.fits20.le
  missed20 := by
    rw [bit_one_status]
    exact sound.fits20.ge
  ordered := by
    rw [bit_one_status, bit_zero_status]
    intro set
    -- the band of the warmer mark lies below that of the other one
    have warm : heater.level ≤ 84 := sound.fits20.le set
    by_contra clear
    have cold : 102 ≤ heater.level := sound.fits15.ge (Bool.eq_false_of_not_eq_true clear)
    omega

/-- **From one call to the next**: between the edges of its band a mark's bit is what it was before the call. -/
structure Steady (before after : Heater) : Prop where
  mark15 : 102 ≤ after.level → after.level ≤ 108 →
    Bits.bit 0 after.status.toNat = Bits.bit 0 before.status.toNat
  mark20 : 78 ≤ after.level → after.level ≤ 84 →
    Bits.bit 1 after.status.toNat = Bits.bit 1 before.status.toNat

theorem Sound.steady {heater : Heater} (sound : Sound heater) (call : Call) :
    Steady heater (call.next heater) := by
  suffices same : ∀ (mark : Int) (bit : Heater → Bool),
      (∀ heater : Heater, bit heater.tick = switch mark heater.nextLevel (bit heater)) →
      (∀ (heater : Heater) on, bit (heater.setBurner on) = bit heater) →
      Fits mark heater.level (bit heater) → mark + hysteresis < coldLevel →
      mark - hysteresis ≤ (call.next heater).level → (call.next heater).level ≤ mark + hysteresis →
      bit (call.next heater) = bit heater by
    refine ⟨fun notWarm notCold => ?_, fun notWarm notCold => ?_⟩
    · rw [bit_zero_status, bit_zero_status]
      exact same mark15 reached15 (fun _ => rfl) (fun _ _ => rfl) sound.fits15 (by decide) notWarm notCold
    · rw [bit_one_status, bit_one_status]
      exact same mark20 reached20 (fun _ => rfl) (fun _ _ => rfl) sound.fits20 (by decide) notWarm notCold
  intro mark bit follows unswitched fits below notWarm notCold
  cases call with
  | setBurner on => exact unswitched heater on
  | write value => exact unswitched heater _
  | tick count => exact ticks_between follows _ fits notWarm notCold
  -- a reset leaves the level at the cold end, which is in no band
  | reset => exact absurd notCold (Int.not_le.2 below)

end Heater

/-! ## The heater at its port -/

namespace Machine

variable {σ : Type}

/-- The heater is in this state, and takes what is written to its port. -/
def HeaterIs (heater : Heater) (m : Machine σ) : Prop :=
  m.devices.heater = heater ∧ m.bus.writer? heaterPort = some .heater

end Machine

/-- **Observers of the heater's port leave the heater alone**, and its port. They may do anything else, and fail
in any way. -/
structure Env.SparesHeater {σ : Type} (env : Env σ) : Prop where
  notify : ∀ hook value heater,
    Machine.Keeps (Machine.HeaterIs heater) (env.notify hook (.out heaterPort value))

namespace Heater

open Machine

variable {σ : Type} {env : Env σ}

/-- Only the highest bit of the byte that is written counts. -/
theorem bit_seven_toByte (value : Int) : Bits.bit 7 (Bits.toByte value).toNat = Bits.bit 7 value := by
  rw [Bits.bit_seven, Bits.bit_seven, Bits.toNat_toByte, Int.emod_emod]

theorem ensures_setBurner (on : Bool) (heater : Heater) {E : Failure → Machine σ → Prop} :
    Ensures (HeaterIs heater) (Machine.setBurner on : Action σ Unit)
      (fun _ => HeaterIs (heater.setBurner on)) E := by
  have switched : Ensures (HeaterIs heater)
      (modifyDevices fun devices => { devices with heater := devices.heater.setBurner on } : Action σ Unit)
      (fun _ => HeaterIs (heater.setBurner on)) E :=
    .modify fun m is => ⟨congrArg (Heater.setBurner · on) is.1, is.2⟩
  exact .bind switched fun _ => .modify fun m is => is

/-- **What a call does to the heater** is all that it does to it. -/
theorem tracks_heater (spares : env.SparesHeater) : Tracks (Call.perform env) Call.next HeaterIs := by
  intro call heater
  cases call with
  | setBurner on => exact ensures_setBurner on heater
  | write value =>
    refine .get fun m is => .of_eq is ?_
    rw [is.2]
    -- the heater has taken the byte when the taps of its port are told
    refine .bind (Q := fun _ => HeaterIs (heater.setBurner (Bits.bit 7 value))) ?_ fun _ =>
      .get fun now still => .of_eq still (.forM fun hook => (spares.notify hook _ _).ensures)
    rw [← bit_seven_toByte]
    exact ensures_setBurner _ heater
  | tick count =>
    exact .modify fun m is => ⟨congrArg (ticks count.toNat) is.1, is.2⟩
  | reset => exact .modify fun m is => ⟨rfl, is.2⟩

/-- Ticks of a number of calls are the ticks of one. -/
theorem leftBy_tick_add (env : Env σ) (i j : Nat) (m : Machine σ) :
    leftBy (Call.perform env (.tick (i + j : Nat))) m =
      leftBy (Call.perform env (.tick j)) (leftBy (Call.perform env (.tick i)) m) := by
  have left (n : Nat) (m : Machine σ) : leftBy (Call.perform env (.tick n)) m =
      { m with devices := { m.devices with heater := ticks n m.devices.heater } } :=
    leftBy_of_ok (a := ()) rfl
  rw [left, left, left, ticks_add]

/-- **The rules of the heater hold whatever is done to it** from power-on, one call after the other. So do those
from one call to the next, and ticks can be taken together. -/
theorem regular_of_calls (spares : env.SparesHeater) {m : Machine σ} (powerOn : HeaterIs {} m)
    (calls : List Call) :
    Regular (lastCommand calls) (afterCalls (Call.perform env) calls m).devices.heater ∧
      (∀ call, Steady (afterCalls (Call.perform env) calls m).devices.heater
        (afterCalls (Call.perform env) (calls ++ [call]) m).devices.heater) ∧
      ∀ i j : Nat, afterCalls (Call.perform env) (calls ++ [.tick (i + j : Nat)]) m =
        afterCalls (Call.perform env) (calls ++ [.tick i, .tick j]) m := by
  have is := (tracks_heater spares).afterCalls calls powerOn
  obtain ⟨sound, burner⟩ := sound_foldl calls
  refine ⟨?_, fun call => ?_, fun i j => ?_⟩
  · rw [is.1, ← burner]
    exact sound.regular
  · have next := (tracks_heater spares call _).leftBy is
    rw [afterCalls_concat, next.1, is.1]
    exact sound.steady call
  · have twice : calls ++ [.tick i, .tick j] = (calls ++ [.tick i]) ++ [.tick j] := by
      rw [List.append_assoc, List.singleton_append]
    rw [twice, afterCalls_concat, afterCalls_concat, afterCalls_concat, leftBy_tick_add]

/-- A new simulator with a tap at the heater's port. -/
def tapped : Machine Nat :=
  { simulator 0 with observers := { listeners := [.display], writeTaps := [(heaterPort, 0)] } }

/-- Warms the thermometer beyond the band of the first mark and lets it cool back into it. -/
def coolingBack : List Call :=
  [.write 0x80, .tick 29, .write 0, .tick 4]

set_option maxRecDepth 1024 in
theorem regular_of_calls_cooling_back :
    counting.SparesHeater ∧ HeaterIs {} tapped ∧ lastCommand coolingBack = false ∧
      (afterCalls (Call.perform counting) coolingBack tapped).devices.heater =
        { level := 105, reached15 := true } ∧
      Regular (lastCommand coolingBack)
        (afterCalls (Call.perform counting) coolingBack tapped).devices.heater ∧
      Steady (afterCalls (Call.perform counting) coolingBack tapped).devices.heater
        (afterCalls (Call.perform counting) (coolingBack ++ [.tick 3]) tapped).devices.heater := by
  have spares : counting.SparesHeater := ⟨fun _ _ _ => .modify fun _ is => is⟩
  obtain ⟨regular, steady, _⟩ := regular_of_calls spares (m := tapped) ⟨rfl, rfl⟩ coolingBack
  exact ⟨spares, ⟨rfl, rfl⟩, by decide, rfl, regular, steady (.tick 3)⟩

end Heater

end EightBit
