import Mathlib.Algebra.Module.PUnit
import NativeBindings.Proofs.Run.Question
import NativeBindings.Proofs.Stub.View

namespace NativeBindings

/-! # Comparing runs

Two computations agree if, started in step with each other, they give what looks the
same and leave runs behind that are in step again.  Each way to put computations
together has a rule, so that two programs of the same shape are compared part by part.

How far the first run will get may be known beforehand.  A computation takes nothing
back, so what holds of the end of a run holds on the way there too.
-/

/-- Configurations that a view does not tell apart.  The platform decides on names of
types and on signs, so it only counts to a view that is not coarse. -/
def View.Allows (view : View) (config other : Config) : Prop :=
  ∃ platform mode, other = { config with platform, mode } ∧
    (view.coarse = false → platform = config.platform)

theorem View.Allows.refl (view : View) (config : Config) : view.Allows config config :=
  ⟨config.platform, config.mode, rfl, fun _ => rfl⟩

/-- When two runs are in step, and what is seen of the values they give. -/
structure Comparison where
  view : View
  inStep : Run → Run → Prop
  /-- What is known of every state that the first run gets to. -/
  mayReach : Run → Prop
  mayReach_of_le : ∀ {run later}, run ≤ later → mayReach later → mayReach run

namespace Comparison

variable {comparison : Comparison} {α β : Type} [MulAction View α] [MulAction View β]

/-- From runs in step, both computations give what looks the same and end in step. -/
def Agree (comparison : Comparison) (first second : StateM Run α) : Prop :=
  Grows first ∧ ∀ run other, comparison.inStep run other →
    comparison.mayReach (first.run run).2 →
      comparison.inStep (first.run run).2 (second.run other).2 ∧
        comparison.view.Same (first.run run).1 (second.run other).1

namespace Agree

theorem ends {first second : StateM Run α} (agree : comparison.Agree first second)
    {run other after last : Run} {value again : α} (inStep : comparison.inStep run other)
    (one : first.run run = (value, after)) (two : second.run other = (again, last))
    (reaches : comparison.mayReach after) :
    comparison.inStep after last ∧ comparison.view.Same value again := by
  have compared := agree.2 run other inStep
  rw [one, two] at compared
  exact compared reaches

theorem pure {value other : α} (same : comparison.view.Same value other) :
    comparison.Agree (Pure.pure value) (Pure.pure other) :=
  ⟨.pure value, fun _ _ inStep _ => ⟨inStep, same⟩⟩

theorem bind {first second : StateM Run α} {next after : α → StateM Run β}
    (starts : comparison.Agree first second)
    (continues : ∀ value other, comparison.view.Same value other →
      comparison.Agree (next value) (after other)) :
    comparison.Agree (first >>= next) (second >>= after) := by
  have grows (value : α) : Grows (next value) :=
    (continues value _ (comparison.view.same_numbering value)).1
  refine ⟨.bind starts.1 grows, fun run other inStep reaches => ?_⟩
  have mid := comparison.mayReach_of_le (grows _ _) reaches
  obtain ⟨inStep, same⟩ := starts.2 run other inStep mid
  exact (continues _ _ same).2 _ _ inStep reaches

/-- An optional step, and what follows if it has a value. -/
theorem option {first second : Represents α} {next after : α → Represents β}
    (starts : comparison.Agree first.run second.run)
    (continues : ∀ value other, comparison.view.Same value other →
      comparison.Agree (next value).run (after other).run) :
    comparison.Agree (first >>= next).run (second >>= after).run := by
  rw [OptionT.run_bind, OptionT.run_bind]
  refine starts.bind fun value? other? same => ?_
  match value?, other?, same with
  | some value, some other, same => exact continues value other (Option.some.inj same)
  | none, none, _ => exact pure rfl

theorem some {value other : α} (same : comparison.view.Same value other) :
    comparison.Agree (Pure.pure value : Represents α).run (Pure.pure other : Represents α).run :=
  pure (congrArg Option.some same)

theorem failure : comparison.Agree (failure : Represents α).run (failure : Represents α).run :=
  pure rfl

/-- What the index alone decides is the same for both. -/
theorem ofOption {γ : Type} {value? : Option γ} {next after : γ → Represents β}
    (continues : ∀ value, value? = .some value →
      comparison.Agree (next value).run (after value).run) :
    comparison.Agree (OptionT.mk (Pure.pure value?) >>= next).run
      (OptionT.mk (Pure.pure value?) >>= after).run := by
  cases found : value? with
  | some value => exact continues value found
  | none => exact pure rfl

theorem liftOption {first second : StateM Run α} (agree : comparison.Agree first second) :
    comparison.Agree (liftM first : Represents α).run (liftM second : Represents α).run :=
  agree.bind fun _ _ same => some same

/-- What both read off their runs. -/
theorem readOption {next after : Run → Represents β}
    (allows : ∀ {run other}, comparison.inStep run other →
      comparison.view.Allows run.config other.config)
    (continues : ∀ run other, comparison.view.Allows run.config other.config →
      comparison.Agree (next run).run (after other).run) :
    comparison.Agree (getThe Run >>= next).run (getThe Run >>= after).run :=
  ⟨fun run => (continues run run (.refl _ _)).1 run,
    fun run other inStep => (continues run other (allows inStep)).2 run other inStep⟩

theorem attempt {first second : Attempt α} {next after : α → Attempt β}
    (starts : comparison.Agree first.run second.run)
    (continues : ∀ value other, comparison.view.Same value other →
      comparison.Agree (next value).run (after other).run) :
    comparison.Agree (first >>= next).run (second >>= after).run := by
  rw [ExceptT.run_bind, ExceptT.run_bind]
  refine starts.bind fun result again same => ?_
  match result, again, same with
  | .ok value, .ok other, same => exact continues value other (Except.ok.inj same)
  | .error error, .error other, same =>
      cases same
      exact pure rfl

theorem ok {value other : α} (same : comparison.view.Same value other) :
    comparison.Agree (Pure.pure value : Attempt α).run (Pure.pure other : Attempt α).run :=
  pure (congrArg Except.ok same)

theorem throw (error : BuildError) :
    comparison.Agree (throw error : Attempt α).run (throw error : Attempt α).run := pure rfl

/-- What stands behind a failure is not tried. -/
theorem throw_bind {γ : Type} (error : BuildError) {next after : γ → Attempt α} :
    comparison.Agree (MonadExcept.throw error >>= next).run
      (MonadExcept.throw error >>= after).run :=
  throw error

theorem lift {first second : StateM Run α} (agree : comparison.Agree first second) :
    comparison.Agree (liftM first : Attempt α).run (liftM second : Attempt α).run :=
  agree.bind fun _ _ same => ok same

/-- What both read off their runs. -/
theorem readAttempt {next after : Run → Attempt β}
    (allows : ∀ {run other}, comparison.inStep run other →
      comparison.view.Allows run.config other.config)
    (continues : ∀ run other, comparison.view.Allows run.config other.config →
      comparison.Agree (next run).run (after other).run) :
    comparison.Agree (getThe Run >>= next).run (getThe Run >>= after).run :=
  ⟨fun run => (continues run run (.refl _ _)).1 run,
    fun run other inStep => (continues run other (allows inStep)).2 run other inStep⟩

theorem within (place : BuildError → BuildError) {first second : Attempt α}
    (agree : comparison.Agree first.run second.run) :
    comparison.Agree (Attempt.within place first).run (Attempt.within place second).run := by
  refine agree.bind fun result again same => pure ?_
  match result, again, same with
  | .ok value, .ok other, same => exact same
  | .error error, .error other, same =>
      cases same
      rfl

/-- One attempt for each item of a list. -/
theorem mapM {γ : Type} {first second : γ → Attempt α}
    (each : ∀ item, comparison.Agree (first item).run (second item).run) (items : List γ) :
    comparison.Agree (items.mapM first).run (items.mapM second).run := by
  induction items with
  | nil => exact ok rfl
  | cons item rest ih =>
      rw [List.mapM_cons, List.mapM_cons]
      refine (each item).attempt fun value other same => ih.attempt fun values others all => ok ?_
      exact congrArg₂ List.cons same all

end Agree

end Comparison

end NativeBindings
