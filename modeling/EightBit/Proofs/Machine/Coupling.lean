import EightBit.Proofs.Machine.Local

/-!
# Two Runs Side by Side

The processor has no access to the control panel and to the journal. So the same action on two
machines that differ in these alone ends in the same way on both, and leaves them beside each other.
Observers and attached devices could look at the control panel; what is proved here is for those that
do not tell the two panels apart.

How the two control panels are related is a parameter, and it may depend on the mode. Halting and
faulting change the mode; all other ways to end, abandoning an input among them, keep the relation.

## Main Definitions

- `Beside`: two machines that differ in control panel and journal alone.
- `Uniform`: an action that keeps machines beside each other.
- `Env.Uniform`: observers and attached devices that do.

## Main Statements

- `coupled_step`: steps keep machines beside each other, completed or not.
-/

namespace EightBit

namespace Machine

variable {σ α : Type}

/-! ## Machines beside each other -/

/-- How two control panels are related, in the mode that both processors are in. -/
abbrev Tie : Type :=
  Mode → Control → Control → Prop

/-- The second machine is the first one with another control panel and another journal. -/
inductive Beside (tie : Tie) (m : Machine σ) : Machine σ → Prop
  | intro {control journal} (tied : tie m.cpu.mode m.control control) :
    Beside tie m { m with control, journal }

theorem Beside.mono {tie looser : Tie} {m n : Machine σ} (beside : Beside tie m n)
    (weaker : ∀ mode a b, tie mode a b → looser mode a b) : Beside looser m n := by
  cases beside with
  | intro tied => exact .intro (weaker _ _ _ tied)

/-- The control panels are related as they are in some mode. -/
def Tie.loose (tie : Tie) : Tie :=
  fun _ a b => ∃ mode, tie mode a b

theorem Beside.loosen {tie : Tie} {m n : Machine σ} (beside : Beside tie m n) :
    Beside tie.loose m n :=
  beside.mono fun mode _ _ tied => ⟨mode, tied⟩

/-- What holds after a failure. All but an abandoned input may become a fault, which changes the mode. -/
def Leaves (tie : Tie) : Failure → Machine σ → Machine σ → Prop
  | .aborted => Beside tie
  | _ => Beside tie.loose

theorem Leaves.of_beside {tie : Tie} (failure : Failure) {m n : Machine σ} (beside : Beside tie m n) :
    Leaves tie failure m n := by
  cases failure with
  | aborted => exact beside
  | _ => exact beside.loosen

theorem Leaves.loosen {tie : Tie} {failure : Failure} {m n : Machine σ}
    (leaves : Leaves tie failure m n) : Beside tie.loose m n := by
  cases failure with
  | aborted => exact Beside.loosen leaves
  | _ => exact leaves

/-- **The action keeps machines beside each other**, and ends in the same way on both. -/
def Uniform (tie : Tie) (action : Action σ α) : Prop :=
  Coupled (Beside tie) action action (Beside tie) (Leaves tie)

section Uniform

variable {tie : Tie}

theorem Uniform.pure (a : α) : Uniform tie (pure a : Action σ α) :=
  Coupled.pure fun _ _ beside => beside

/-- A change may be of anything but the control panel and the mode. -/
theorem Uniform.modify {f : Machine σ → Machine σ}
    (keeps : ∀ m, (f m).cpu.mode = m.cpu.mode ∧ (f m).control = m.control)
    (blind : ∀ m control journal, ∃ after,
      f { m with control, journal } = { f m with control, journal := after }) :
    Uniform tie (modify f : Action σ Unit) := by
  refine Coupled.modify fun m n beside => ?_
  -- control panels and journals are all that the machines differ in, and the change does not look at them
  cases beside with
  | @intro control journal tied =>
    obtain ⟨after, changed⟩ := blind m control journal
    rw [changed]
    rw [← (keeps m).1, ← (keeps m).2] at tied
    exact .intro tied

theorem around_beside : Around (Beside tie : Machine σ → Machine σ → Prop) where
  same := fun m n beside => by
    cases beside
    rfl
  processor := fun m n cpu beside mode _ => by
    cases beside with
    | intro tied =>
      -- the control panel is tied by the mode, which does not change
      rw [← mode] at tied
      exact .intro tied
  devices := fun m n devices beside _ => by
    cases beside with
    | intro tied => exact .intro tied
  notes := fun m n notes beside => by
    cases beside with
    | intro tied => exact .intro tied
  journal := fun m n record beside => by
    cases beside with
    | intro tied => exact .intro tied

theorem beyond_beside : Beyond (Beside tie : Machine σ → Machine σ → Prop) where
  toAround := around_beside
  memory := fun m n memory beside => by
    cases beside with
    | intro tied => exact .intro tied
  display := fun m n display beside => by
    cases beside with
    | intro tied => exact .intro tied

theorem modeless_beside : Modeless (Beside tie.loose : Machine σ → Machine σ → Prop) where
  toAround := around_beside
  freely := fun m n cpu beside _ => by
    cases beside with
    | intro tied => exact .intro tied

theorem keyed_beside : Keyed (Beside tie : Machine σ → Machine σ → Prop) where
  toAround := around_beside
  operator_eq := fun m n beside => by
    cases beside
    rfl
  operator := fun m n operator beside => by
    cases beside with
    | intro tied => exact .intro tied
  keyboard := fun m n devices beside => by
    cases beside with
    | intro tied => exact .intro tied

/-- The keyboard has nothing to do with control panel and journal. -/
theorem uniform_readKey : Uniform tie (readKey : Action σ UInt8) :=
  keyed_beside.readKey.mono (fun _ _ beside => beside) (fun _ _ beside => beside)
    fun failure _ _ beside => .of_beside failure beside

end Uniform

end Machine

/-! ## Observers that do not tell control panels apart -/

/-- Observers and attached devices keep machines beside each other. -/
structure Env.Uniform {σ : Type} (env : Env σ) (tie : Machine.Tie) : Prop where
  notify : ∀ hook notice, Machine.Uniform tie (env.notify hook notice)
  answer : ∀ hook port, Machine.Uniform tie (env.answer hook port)

namespace Machine

variable {σ : Type} {env : Env σ} {tie : Tie}

section Told

variable (uniform : env.Uniform tie)
include uniform

/-- Such observers and devices carry what is beside each other through every instruction. -/
theorem carries_of_uniform : env.Carries (Beside tie) (Beside tie.loose) (Leaves tie) where
  around := around_beside
  modeless := modeless_beside
  loosen := fun _ _ beside => beside.loosen
  internal := fun failure _ _ _ beside => .of_beside failure beside
  fault := fun _ _ _ beside => beside
  settle := fun _ _ _ left => left.loosen
  rewind := fun m n ip beside => by
    -- the processor of both machines is one, so both are rewound alike
    have same : n.cpu = m.cpu := around_beside.cpu_eq beside
    rw [same]
    exact around_beside.processor m n _ beside rfl rfl
  notify := uniform.notify
  answer := uniform.answer
  store := beyond_beside.store uniform.notify fun failure _ _ _ beside => .of_beside failure beside

/-- **Steps keep machines beside each other**, completed or not. -/
theorem coupled_step :
    Coupled (Beside tie) (step env) (step env) (Beside tie.loose) (Leaves tie) := by
  have carries := carries_of_uniform uniform
  exact carries.step (carries.weaken uniform_readKey)

/-- The same, for one step and with the mode left out of the tie. -/
theorem paired_step {same : Control → Control → Prop} (weaker : ∀ mode a b, tie mode a b → same a b)
    {m n : Machine σ} (beside : Beside tie m n) :
    Paired (Beside fun _ => same) (fun _ => Beside fun _ => same) (step env m) (step env n) := by
  have paired := coupled_step uniform m n beside
  generalize step env m = result, step env n = result' at paired
  cases paired with
  | ok related => exact .ok (related.mono fun _ _ _ ⟨_, tied⟩ => weaker _ _ _ tied)
  | error related => exact .error (related.loosen.mono fun _ _ _ ⟨_, tied⟩ => weaker _ _ _ tied)

end Told

end Machine

end EightBit
