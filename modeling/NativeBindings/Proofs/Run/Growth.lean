import Mathlib.Order.Defs.PartialOrder
import NativeBindings.Build.Attempt

namespace NativeBindings

/-! # What a run keeps

A run only grows: its configuration and its package never change, a name once
decided stays decided, and both counters go upwards.  A computation may fail on
its way, but it takes nothing back.
-/

namespace Run

/-- `later` is the same run at the same time or afterwards. -/
structure Precedes (run later : Run) : Prop where
  config : later.config = run.config
  package : later.package = run.package
  wrapperPackage : later.wrapperNames.package = run.wrapperNames.package
  classifiers : ∀ {id answer}, run.classifiers.get? id = some answer →
    later.classifiers.get? id = some answer
  stubs : run.nextStub ≤ later.nextStub
  wrappers : run.wrapperNames.next ≤ later.wrapperNames.next

instance : Preorder Run where
  le := Precedes
  le_refl _ := ⟨rfl, rfl, rfl, id, Nat.le_refl _, Nat.le_refl _⟩
  le_trans _ _ _ first second := {
    config := second.config.trans first.config
    package := second.package.trans first.package
    wrapperPackage := second.wrapperPackage.trans first.wrapperPackage
    classifiers := fun known => second.classifiers (first.classifiers known)
    stubs := Nat.le_trans first.stubs second.stubs
    wrappers := Nat.le_trans first.wrappers second.wrappers }

/-- The classifier that a run knows a declaration by. -/
def Names (run : Run) (decl : Declaration) (classifier : Classifier) : Prop :=
  ∃ id, decl.typeId? = some id ∧ run.classifiers.get? id = some (some classifier)

theorem Names.mono {run later : Run} {decl : Declaration} {classifier : Classifier}
    (named : run.Names decl classifier) (le : run ≤ later) : later.Names decl classifier := by
  obtain ⟨id, typeId, known⟩ := named
  exact ⟨id, typeId, le.classifiers known⟩

theorem Names.unique {run : Run} {decl : Declaration} {first second : Classifier}
    (named : run.Names decl first) (again : run.Names decl second) : first = second := by
  obtain ⟨id, typeId, known⟩ := named
  obtain ⟨other, otherId, otherKnown⟩ := again
  cases typeId.symm.trans otherId
  cases known.symm.trans otherKnown
  rfl

end Run

/-- A computation that takes nothing back. -/
def Grows {α : Type} (compute : StateM Run α) : Prop := ∀ run, run ≤ (compute.run run).2

namespace Grows

variable {α β : Type}

theorem pure (value : α) : Grows (Pure.pure value) := fun _ => le_rfl

theorem bind {compute : StateM Run α} {next : α → StateM Run β} (first : Grows compute)
    (second : ∀ value, Grows (next value)) : Grows (compute >>= next) := fun run =>
  le_trans (first run) (second _ _)

end Grows

namespace Run

theorem anonymousNumber_run (id : DeclId) (run : Run) :
    (anonymousNumber id).run run =
      match run.anonymousStructs.idxOf? id with
      | some place => (place + 1, run)
      | none =>
          (run.anonymousStructs.length + 1,
            { run with anonymousStructs := run.anonymousStructs ++ [id] }) := by
  simp only [anonymousNumber, StateT.run_bind, StateT.run_get]
  cases found : run.anonymousStructs.idxOf? id <;> simp [found] <;> rfl

theorem grows_anonymousName (id : DeclId) : Grows (anonymousName id) := by
  refine Grows.bind (fun run => ?_) fun _ => Grows.pure _
  rw [anonymousNumber_run]
  split
  · exact le_rfl
  · exact ⟨rfl, rfl, rfl, fun known => known, Nat.le_refl _, Nat.le_refl _⟩

theorem grows_recordForward (name : String) (classifier : Classifier) :
    Grows (recordForward name classifier) := fun _ =>
  ⟨rfl, rfl, rfl, id, Nat.le_refl _, Nat.le_refl _⟩

theorem grows_recordStrictness (name : String) (strict : Bool) :
    Grows (recordStrictness name strict) := fun _ =>
  ⟨rfl, rfl, rfl, id, Nat.le_refl _, Nat.le_refl _⟩

theorem grows_freshStub : Grows freshStub := fun _ =>
  ⟨rfl, rfl, rfl, id, Nat.le_succ _, Nat.le_refl _⟩

theorem grows_wrapperName (role base : String) : Grows (wrapperName role base) := fun _ =>
  ⟨rfl, rfl, rfl, id, Nat.le_refl _, Nat.le_succ _⟩

end Run

namespace Index

variable (index : Index)

/-- The platform is asked for once. -/
theorem decideClassifier_run_naming (decl : Declaration) (id : DeclId) (run : Run) :
    (index.decideClassifier decl id).run run =
      (match index.naming run.config.platform decl with
        | .named name => pure (some ⟨run.package, name⟩)
        | .forward package name => do
            Run.recordForward name ⟨package, name⟩
            pure (some ⟨package, name⟩)
        | .numbered => do pure (some ⟨run.package, ← Run.anonymousName id⟩)
        | .unnamed => pure none : StateM Run (Option Classifier)).run run := rfl

theorem grows_decideClassifier (decl : Declaration) (id : DeclId) :
    Grows (index.decideClassifier decl id) := by
  refine Grows.bind (fun _ => le_rfl) fun run => ?_
  split
  · exact Grows.pure _
  · exact Grows.bind (Run.grows_recordForward _ _) fun _ => Grows.pure _
  · exact Grows.bind (Run.grows_anonymousName id) fun _ => Grows.pure _
  · exact Grows.pure _

/-- Nothing is decided for a declaration that names no type. -/
theorem classifier_run_untyped {decl : Declaration} (untyped : decl.typeId? = none) (run : Run) :
    (index.classifier decl).run run = (none, run) := by
  simp only [classifier, untyped]
  rfl

theorem classifier_run_known {decl : Declaration} {id : DeclId} {run : Run}
    {answer : Option Classifier} (typeId : decl.typeId? = some id)
    (known : run.classifiers.get? id = some answer) :
    (index.classifier decl).run run = (answer, run) := by
  simp [classifier, typeId, known]
  rfl

theorem classifier_run_new {decl : Declaration} {id : DeclId} {run : Run}
    (typeId : decl.typeId? = some id) (unknown : run.classifiers.get? id = none) :
    (index.classifier decl).run run =
      (((index.decideClassifier decl id).run run).1,
        { ((index.decideClassifier decl id).run run).2 with
          classifiers := ((index.decideClassifier decl id).run run).2.classifiers.insert id
            ((index.decideClassifier decl id).run run).1 }) := by
  simp [classifier, typeId, unknown]
  rfl

/-- Whatever a declaration is called, the answer is remembered under its identity. -/
theorem classifier_known {decl : Declaration} {id : DeclId} (typeId : decl.typeId? = some id)
    (run : Run) :
    ((index.classifier decl).run run).2.classifiers.get? id =
      some ((index.classifier decl).run run).1 := by
  cases known : run.classifiers.get? id with
  | some answer =>
      rw [index.classifier_run_known typeId known]
      exact known
  | none =>
      rw [index.classifier_run_new typeId known]
      simp [SlotMap.get?_insert]

theorem grows_classifier (decl : Declaration) : Grows (index.classifier decl) := by
  intro run
  cases typeId : decl.typeId? with
  | none => exact (index.classifier_run_untyped typeId run) ▸ le_rfl
  | some id =>
      cases known : run.classifiers.get? id with
      | some answer => exact (index.classifier_run_known typeId known) ▸ le_rfl
      | none =>
          rw [index.classifier_run_new typeId known]
          have decided := index.grows_decideClassifier decl id run
          refine ⟨decided.config, decided.package, decided.wrapperPackage, ?_, decided.stubs,
            decided.wrappers⟩
          intro other answer old
          -- Only an identity that was unknown before is given an answer.
          have different : id ≠ other := by
            rintro rfl
            cases known.symm.trans old
          simpa [SlotMap.get?_insert, different] using decided.classifiers old

/-- A question for a name touches nothing but the tables of names. -/
theorem classifier_frame (decl : Declaration) (run : Run) :
    ∃ structs names forward, ((index.classifier decl).run run).2 =
      { run with
        anonymousStructs := structs
        classifiers := names
        forwardDeclarations := forward } := by
  have decided (id : DeclId) : ∃ structs names forward,
      ((index.decideClassifier decl id).run run).2 =
        { run with
          anonymousStructs := structs
          classifiers := names
          forwardDeclarations := forward } := by
    rw [decideClassifier_run_naming]
    cases index.naming run.config.platform decl with
    | unnamed | named name | forward package name => exact ⟨_, _, _, rfl⟩
    | numbered =>
        have numbered : ((Run.anonymousName id).run run).2 =
          ((Run.anonymousNumber id).run run).2 := rfl
        change ∃ _ _ _, ((Run.anonymousName id).run run).2 = _
        rw [numbered, Run.anonymousNumber_run]
        split <;> exact ⟨_, _, _, rfl⟩
  cases typeId : decl.typeId? with
  | none =>
      rw [index.classifier_run_untyped typeId]
      exact ⟨_, _, _, rfl⟩
  | some id =>
      cases known : run.classifiers.get? id with
      | some answer =>
          rw [index.classifier_run_known typeId known]
          exact ⟨_, _, _, rfl⟩
      | none =>
          obtain ⟨structs, names, forward, same⟩ := decided id
          rw [index.classifier_run_new typeId known, same]
          exact ⟨_, _, _, rfl⟩

theorem names_of_classifier {decl : Declaration} {run after : Run} {classifier : Classifier}
    (ends : (index.classifier decl).run run = (some classifier, after)) :
    after.Names decl classifier := by
  cases typeId : decl.typeId? with
  | none =>
      rw [index.classifier_run_untyped typeId] at ends
      cases ends
  | some id =>
      have known := index.classifier_known typeId run
      rw [ends] at known
      exact ⟨id, typeId, known⟩

end Index

end NativeBindings
