import NativeBindings.Proofs.Run.Growth

namespace NativeBindings

/-! # Questions to a run

A computation that only asks for names and for the configuration is a question.
What it decides on its way is remembered, so asked again, at any later time, it has
the same answer and changes nothing.
-/

theorem Represents.run_bind {α β : Type} {ask : Represents α} {next : α → Represents β}
    (run : Run) :
    (ask >>= next).run run =
      match (ask.run run).1 with
      | some answer => (next answer).run (ask.run run).2
      | none => (none, (ask.run run).2) := by
  change ((match (ask.run run).1 with
    | some answer => (next answer).run
    | none => Pure.pure none) : StateM Run (Option β)) (ask.run run).2 = _
  cases (ask.run run).1 <;> rfl

/-- A question whose answers satisfy `holds` in the run they leave behind. -/
structure Represents.Finds {α : Type} (ask : Represents α) (holds : Run → α → Prop) :
    Prop where
  grows : Grows ask.run
  again : ∀ run later, (ask.run run).2 ≤ later → ask.run later = ((ask.run run).1, later)
  sound : ∀ run answer, (ask.run run).1 = some answer → holds (ask.run run).2 answer

namespace Represents.Finds

variable {α β : Type} {ask : Represents α} {holds weaker : Run → α → Prop}

theorem mono (finds : ask.Finds holds)
    (implies : ∀ run answer, holds run answer → weaker run answer) : ask.Finds weaker :=
  ⟨finds.grows, finds.again, fun run answer found => implies _ _ (finds.sound run answer found)⟩

theorem pure {value : α} (answers : ∀ run, holds run value) :
    Represents.Finds (Pure.pure value) holds where
  grows _ := le_rfl
  again _ _ _ := rfl
  sound run _ found := Option.some.inj found ▸ answers run

theorem failure : Represents.Finds (failure : Represents α) holds where
  grows _ := le_rfl
  again _ _ _ := rfl
  sound _ _ found := nomatch found

/-- What the index alone decides. -/
theorem ofOption (value? : Option α) :
    Represents.Finds (OptionT.mk (Pure.pure value?)) fun _ answer => value? = some answer where
  grows _ := le_rfl
  again _ _ _ := rfl
  sound _ _ found := found

/-- What the first question found may be used for the second. -/
theorem bind {next : α → Represents β} {goal : Run → β → Prop} (first : ask.Finds holds)
    (stable : ∀ {run later answer}, holds run answer → run ≤ later → holds later answer)
    (second : ∀ answer, (next answer).Finds fun run result =>
      holds run answer → goal run result) :
    (ask >>= next).Finds goal where
  grows run := by
    show run ≤ ((ask >>= next).run run).2
    rw [run_bind]
    split
    · exact le_trans (first.grows run) ((second _).grows _)
    · exact first.grows run
  again run later ends := by
    have asked := first.again run later
    rw [run_bind] at ends
    rw [run_bind, run_bind]
    cases found : (ask.run run).1 with
    | none =>
        rw [found] at ends
        rw [asked ends, found]
    | some answer =>
        rw [found] at ends
        have mid := le_trans ((second answer).grows (ask.run run).2) ends
        rw [asked mid, found]
        exact (second answer).again _ _ ends
  sound run result found := by
    rw [run_bind] at found ⊢
    cases asked : (ask.run run).1 with
    | none => rw [asked] at found; cases found
    | some answer =>
        rw [asked] at found
        exact (second answer).sound _ _ found
          (stable (first.sound run answer asked) ((second answer).grows _))

/-- What depends on the configuration, which is the same for the whole run. -/
theorem config {next : Run → Represents β} {goal : Run → β → Prop}
    (same : ∀ run later, later.config = run.config → next later = next run)
    (second : ∀ run, (next run).Finds fun after result =>
      after.config = run.config → goal after result) :
    Represents.Finds (getThe Run >>= next) goal := by
  have run_config (run : Run) : OptionT.run (getThe Run >>= next) run = (next run).run run := rfl
  refine ⟨fun run => (second run).grows run, fun run later ends => ?_, fun run result found => ?_⟩
  · rw [run_config] at ends
    have le : run ≤ later := le_trans ((second run).grows run) ends
    rw [run_config, run_config, same run later le.config]
    exact (second run).again run later ends
  · exact (second run).sound run result found ((second run).grows run).config

end Represents.Finds

namespace Index

variable (index : Index)

theorem finds_named (decl : Declaration) : (index.named decl).Finds fun run => run.Names decl where
  grows := index.grows_classifier decl
  again run later ends := by
    cases typeId : decl.typeId? with
    | none =>
        show (index.classifier decl).run later = (((index.classifier decl).run run).1, later)
        rw [index.classifier_run_untyped typeId, index.classifier_run_untyped typeId]
    | some id =>
        have known := ends.classifiers (index.classifier_known typeId run)
        exact index.classifier_run_known typeId known
  sound run answer found := index.names_of_classifier (Prod.ext found rfl)

end Index

end NativeBindings
