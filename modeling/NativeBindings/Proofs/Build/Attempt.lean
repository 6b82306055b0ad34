import Mathlib.Data.List.Perm.Subperm
import NativeBindings.Proofs.Run.Question

namespace NativeBindings

/-! # What computations leave behind

Builders are taken apart step by step, from the run in which they start.  Every
step leaves a later run behind, also where it fails, and what a step that ended
well found out holds for the rest of the run.
-/

/-- The numbers of stubs that a run handed out between two of its states, each
once. -/
structure Run.Numbered (run after : Run) (ids : List StubId) : Prop where
  le : run ≤ after
  distinct : ids.Nodup
  lower : ∀ id ∈ ids, run.nextStub ≤ id.number
  upper : ∀ id ∈ ids, id.number < after.nextStub

namespace Run.Numbered

variable {run mid after : Run} {ids more : List StubId}

theorem nil (le : run ≤ after) : run.Numbered after [] := ⟨le, List.nodup_nil, nofun, nofun⟩

theorem subperm (numbered : run.Numbered after ids) (part : more.Subperm ids) :
    run.Numbered after more where
  le := numbered.le
  distinct := by
    obtain ⟨kept, same, sublist⟩ := part
    exact same.nodup (numbered.distinct.sublist sublist)
  lower id member := numbered.lower id (part.subset member)
  upper id member := numbered.upper id (part.subset member)

theorem perm (numbered : run.Numbered after ids) (same : more.Perm ids) :
    run.Numbered after more :=
  numbered.subperm same.subperm

/-- Numbers of later steps are new. -/
theorem append (first : run.Numbered mid ids) (second : mid.Numbered after more) :
    run.Numbered after (ids ++ more) where
  le := le_trans first.le second.le
  distinct := by
    refine List.nodup_append.mpr ⟨first.distinct, second.distinct, ?_⟩
    rintro id early _ late rfl
    exact Nat.lt_irrefl _ (Nat.lt_of_lt_of_le (first.upper id early) (second.lower id late))
  lower id member := by
    rcases List.mem_append.mp member with early | late
    · exact first.lower id early
    · exact Nat.le_trans first.le.stubs (second.lower id late)
  upper id member := by
    rcases List.mem_append.mp member with early | late
    · exact Nat.lt_of_lt_of_le (first.upper id early) second.le.stubs
    · exact second.upper id late

/-- A step that numbers nothing may stand before others. -/
theorem after_le (second : mid.Numbered after more) (le : run ≤ mid) : run.Numbered after more :=
  (nil le).append second

/-- A step that numbers nothing may stand behind others. -/
theorem before_le (first : run.Numbered mid ids) (le : mid ≤ after) : run.Numbered after ids :=
  List.append_nil ids ▸ first.append (nil le)

end Run.Numbered

variable {α β : Type} {run : Run}

/-- Started in `run`, a computation takes nothing back, and `holds` is true of its
value in the run it leaves behind. -/
def Leaves (compute : StateM Run α) (run : Run) (holds : Run → α → Prop) : Prop :=
  run ≤ (compute.run run).2 ∧ holds (compute.run run).2 (compute.run run).1

namespace Leaves

variable {compute : StateM Run α} {holds weaker : Run → α → Prop}

theorem pure {value : α} (here : holds run value) : Leaves (Pure.pure value) run holds :=
  ⟨le_rfl, here⟩

theorem mono (leaves : Leaves compute run holds)
    (implies : ∀ after value, run ≤ after → holds after value → weaker after value) :
    Leaves compute run weaker :=
  ⟨leaves.1, implies _ _ leaves.1 leaves.2⟩

theorem bind {next : α → StateM Run β} {goal : Run → β → Prop} (first : Leaves compute run holds)
    (second : ∀ value mid, run ≤ mid → holds mid value → Leaves (next value) mid goal) :
    Leaves (compute >>= next) run goal :=
  have later := second _ _ first.1 first.2
  ⟨le_trans first.1 later.1, later.2⟩

theorem ofGrows (grows : Grows compute) : Leaves compute run fun _ _ => True := ⟨grows run, trivial⟩

theorem freshStub : Leaves Run.freshStub run fun after id => run.Numbered after [id] :=
  have grown := Run.grows_freshStub run
  ⟨grown, {
    le := grown
    distinct := List.pairwise_singleton _ _
    lower := fun _ member => List.mem_singleton.mp member ▸ Nat.le_refl _
    upper := fun _ member => List.mem_singleton.mp member ▸ Nat.lt_succ_self _ }⟩

end Leaves

/-- An optional value, of which `holds` is true if it is there. -/
def Represents.Leaves (ask : Represents α) (run : Run) (holds : Run → α → Prop) : Prop :=
  NativeBindings.Leaves ask.run run fun after result =>
    ∀ value, result = some value → holds after value

namespace Represents.Leaves

variable {ask : Represents α} {holds : Run → α → Prop}

theorem pure {value : α} (here : holds run value) :
    Represents.Leaves (Pure.pure value) run holds :=
  NativeBindings.Leaves.pure fun _ same => Option.some.inj same ▸ here

theorem ofOption (value? : Option α) :
    Represents.Leaves (OptionT.mk (Pure.pure value?)) run fun _ value => value? = some value :=
  NativeBindings.Leaves.pure fun _ same => same

theorem lift {compute : StateM Run α} (leaves : NativeBindings.Leaves compute run holds) :
    Represents.Leaves (liftM compute) run holds :=
  leaves.bind fun _ _ _ here => .pure fun _ same => Option.some.inj same ▸ here

theorem bind {next : α → Represents β} {goal : Run → β → Prop} (first : ask.Leaves run holds)
    (second : ∀ value mid, run ≤ mid → holds mid value → (next value).Leaves mid goal) :
    (ask >>= next).Leaves run goal := by
  rw [Represents.Leaves, OptionT.run_bind]
  refine NativeBindings.Leaves.bind first fun result mid le found => ?_
  cases result with
  | some value => exact second value mid le (found value rfl)
  | none => exact .pure nofun

/-- What a step reads off the run is read off the one in which it starts. -/
theorem get {next : Run → Represents α} (here : (next run).Leaves run holds) :
    Represents.Leaves (getThe Run >>= next) run holds := here

end Represents.Leaves

namespace Leaves

/-- What holds of the run that an attempt leaves behind, whether or not it ends well. -/
theorem attempt {attempt : Attempt α} {next : α → Attempt β}
    {holds : Run → Except BuildError α → Prop} {goal : Run → Except BuildError β → Prop}
    (first : Leaves attempt.run run holds)
    (fails : ∀ error mid, holds mid (.error error) → goal mid (.error error))
    (continues : ∀ value mid, run ≤ mid → holds mid (.ok value) →
      Leaves (next value).run mid goal) : Leaves (attempt >>= next).run run goal := by
  rw [ExceptT.run_bind]
  refine first.bind fun result mid le found => ?_
  cases result with
  | ok value => exact continues value mid le found
  | error error => exact .pure (fails error mid found)

/-- A step that cannot fail. -/
theorem lift_bind {compute : StateM Run α} {next : α → Attempt β} {holds : Run → α → Prop}
    {goal : Run → Except BuildError β → Prop} (first : Leaves compute run holds)
    (continues : ∀ value mid, run ≤ mid → holds mid value → Leaves (next value).run mid goal) :
    Leaves (liftM compute >>= next : Attempt β).run run goal :=
  have later := continues _ _ first.1 first.2
  ⟨le_trans first.1 later.1, later.2⟩

theorem read {next : Run → Attempt β} {goal : Run → Except BuildError β → Prop}
    (here : Leaves (next run).run run goal) : Leaves (getThe Run >>= next).run run goal := here

end Leaves

/-- A value that `holds` is true of if the attempt ends well. -/
def Attempt.Leaves (attempt : Attempt α) (run : Run) (holds : Run → α → Prop) : Prop :=
  NativeBindings.Leaves attempt.run run fun after result =>
    ∀ value, result = .ok value → holds after value

namespace Attempt.Leaves

variable {attempt : Attempt α} {holds weaker : Run → α → Prop}

theorem pure {value : α} (here : holds run value) : Attempt.Leaves (Pure.pure value) run holds :=
  NativeBindings.Leaves.pure fun _ same => Except.ok.inj same ▸ here

theorem throw (error : BuildError) : Attempt.Leaves (throw error : Attempt α) run holds :=
  NativeBindings.Leaves.pure nofun

theorem lift {compute : StateM Run α} (leaves : NativeBindings.Leaves compute run holds) :
    Attempt.Leaves (liftM compute) run holds :=
  leaves.bind fun _ _ _ here => .pure fun _ same => Except.ok.inj same ▸ here

theorem mono (leaves : attempt.Leaves run holds)
    (implies : ∀ after value, run ≤ after → holds after value → weaker after value) :
    attempt.Leaves run weaker :=
  NativeBindings.Leaves.mono leaves fun after _ le found value same =>
    implies after value le (found value same)

theorem bind {next : α → Attempt β} {goal : Run → β → Prop} (first : attempt.Leaves run holds)
    (second : ∀ value mid, run ≤ mid → holds mid value → (next value).Leaves mid goal) :
    (attempt >>= next).Leaves run goal :=
  NativeBindings.Leaves.attempt first (fun _ _ _ => nofun) fun value mid le found =>
    second value mid le (found value rfl)

theorem of_ok {value : α} {after : Run} (leaves : attempt.Leaves run holds)
    (ends : attempt.run run = (.ok value, after)) : holds after value := by
  have found := leaves.2 value
  rw [show StateT.run attempt.run run = _ from ends] at found
  exact found rfl

/-- What stands behind a failure is not tried. -/
theorem throw_bind (error : BuildError) {next : β → Attempt α} :
    Attempt.Leaves (MonadExcept.throw error >>= next) run holds :=
  .bind (.throw error : Attempt.Leaves _ _ fun _ _ => False) fun _ _ _ => False.elim

theorem get {next : Run → Attempt α} (here : (next run).Leaves run holds) :
    Attempt.Leaves (getThe Run >>= next) run holds := here

theorem within (place : BuildError → BuildError) (leaves : attempt.Leaves run holds) :
    Attempt.Leaves (within place attempt) run holds := by
  refine NativeBindings.Leaves.bind leaves fun result mid _ found => .pure ?_
  rintro value same
  cases result with
  | ok other => exact found value same
  | error error => cases same

/-- One attempt for each item of a list. -/
theorem mapM (each : β → Run → α → Prop) {build : β → Attempt α} {ids : α → List StubId}
    {items : List β}
    (stable : ∀ {item run later value}, each item run value → run ≤ later → each item later value)
    (leaves : ∀ item run, (build item).Leaves run fun after value =>
      each item after value ∧ run.Numbered after (ids value)) :
    (items.mapM build).Leaves run fun after values =>
      List.Forall₂ (fun item value => each item after value) items values ∧
        run.Numbered after (values.flatMap ids) := by
  induction items generalizing run with
  | nil => exact .pure ⟨.nil, .nil le_rfl⟩
  | cons item rest ih =>
      rw [List.mapM_cons]
      refine .bind (leaves item run) fun value mid _ ⟨first, numbered⟩ => ?_
      refine .bind ih fun values after le ⟨others, more⟩ => .pure ?_
      exact ⟨.cons (stable first le) others, numbered.append more⟩

end Attempt.Leaves

theorem Attempt.ext {first second : Attempt α} (same : ∀ run, first.run run = second.run run) :
    first = second := funext same

theorem Attempt.run_lift {compute : StateM Run α} {value : α} {mid : Run}
    (ends : compute.run run = (value, mid)) :
    (liftM compute : Attempt α).run run = (.ok value, mid) := by
  change ((.ok (compute.run run).1 : Except BuildError α), (compute.run run).2) = _
  rw [ends]

theorem Attempt.run_within {place : BuildError → BuildError} {attempt : Attempt α}
    {result : Except BuildError α} {mid : Run} (ends : attempt.run run = (result, mid)) :
    (Attempt.within place attempt).run run = (result.mapError place, mid) := by
  change ((attempt.run run).1.mapError place, (attempt.run run).2) = _
  rw [ends]

/-- An attempt fails wherever it is said to. -/
theorem Attempt.error_of_within {place : BuildError → BuildError} {attempt : Attempt α}
    {error : BuildError} {mid : Run}
    (fails : (Attempt.within place attempt).run run = (.error error, mid)) :
    ∃ cause, attempt.run run = (.error cause, mid) := by
  have inner : ((attempt.run run).1.mapError place, (attempt.run run).2) = (.error error, mid) :=
    fails
  rcases ends : attempt.run run with ⟨result, last⟩
  rw [ends] at inner
  cases result with
  | ok value => cases inner
  | error cause =>
      cases inner
      exact ⟨cause, rfl⟩

/-- A step that ends well hands over to the next. -/
theorem run_bind_ok {ε : Type} {compute : ExceptT ε (StateM Run) α}
    {next : α → ExceptT ε (StateM Run) β} {value : α} {mid : Run}
    (ends : compute.run run = (.ok value, mid)) :
    (compute >>= next).run run = (next value).run mid := by
  rw [ExceptT.run_bind]
  show StateT.run (compute.run >>= _) run = _
  rw [StateT.run_bind, show StateT.run compute.run run = _ from ends]
  rfl

theorem run_bind_error {ε : Type} {compute : ExceptT ε (StateM Run) α}
    {next : α → ExceptT ε (StateM Run) β} {error : ε} {mid : Run}
    (ends : compute.run run = (.error error, mid)) :
    (compute >>= next).run run = (.error error, mid) := by
  rw [ExceptT.run_bind]
  show StateT.run (compute.run >>= _) run = _
  rw [StateT.run_bind, show StateT.run compute.run run = _ from ends]
  rfl

namespace Index

variable (index : Index)

/-- A type that must have a representation fails without one. -/
theorem required_run (type : QualType) (run : Run) :
    (index.required type).run run =
      (((index.represent type).run run).1.elim (.error (.unrepresentable type.spelling)) .ok,
        ((index.represent type).run run).2) := by
  rcases represented : (index.represent type).run run with ⟨answer, mid⟩
  have asked : (liftM (index.represent type).run : Attempt _).run run = (.ok answer, mid) :=
    Attempt.run_lift represented
  unfold required
  rw [run_bind_ok asked]
  cases answer <;> rfl

theorem resolved_run (decl : Declaration) (id : DeclId) (run : Run) :
    (index.resolved decl id).run run =
      (((index.classifier decl).run run).1.elim (.error (.unresolved id)) .ok,
        ((index.classifier decl).run run).2) := by
  rcases named : (index.classifier decl).run run with ⟨answer, mid⟩
  have asked := Attempt.run_lift named
  unfold resolved
  rw [run_bind_ok asked]
  cases answer <;> rfl

end Index

end NativeBindings
