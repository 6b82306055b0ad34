import NativeBindings.Bridge.Module
import NativeBindings.Proofs.Run.Growth

namespace NativeBindings

/-! # What the bridge does to a run

The bridge reads the package of a run and takes names for wrappers, and that is all: any
other run with the same package and the same names left is bridged alike, and nothing
but the names changes.
-/

variable {α β : Type}

/-- A computation that looks at nothing but the package and the names of wrappers, and
only takes such names. -/
def NamesWrappers (compute : StateM Run α) : Prop :=
  ∀ run, run ≤ (compute.run run).2 ∧
    ∀ other : Run, other.package = run.package → other.wrapperNames = run.wrapperNames →
      compute.run other =
        ((compute.run run).1, { other with wrapperNames := (compute.run run).2.wrapperNames })

namespace NamesWrappers

theorem frame {compute : StateM Run α} (names : NamesWrappers compute) (run : Run) :
    (compute.run run).2 = { run with wrapperNames := (compute.run run).2.wrapperNames } :=
  congrArg Prod.snd ((names run).2 run rfl rfl)

theorem pure (value : α) : NamesWrappers (Pure.pure value) :=
  fun _ => ⟨le_rfl, fun _ _ same => congrArg (Prod.mk value) (same ▸ rfl)⟩

theorem bind {compute : StateM Run α} {next : α → StateM Run β} (first : NamesWrappers compute)
    (second : ∀ value, NamesWrappers (next value)) : NamesWrappers (compute >>= next) := by
  intro run
  have continues := second (compute.run run).1 (compute.run run).2
  refine ⟨le_trans (first run).1 continues.1, fun other package names => ?_⟩
  have starts := (first run).2 other package names
  have mid := continues.2 { other with wrapperNames := (compute.run run).2.wrapperNames }
    (package.trans (first run).1.package.symm) rfl
  rw [StateT.run_bind, starts]
  exact mid

theorem wrapperName (role base : String) : NamesWrappers (Run.wrapperName role base) := by
  refine fun run => ⟨Run.grows_wrapperName role base run, fun other _ names => ?_⟩
  change (other.wrapperNames.name role base, _) = (run.wrapperNames.name role base, _)
  rw [names]
  rfl

/-- What depends on the package, which no step changes. -/
theorem reads {next : Run → StateM Run α}
    (same : ∀ run other, other.package = run.package → next other = next run)
    (each : ∀ run, NamesWrappers (next run)) : NamesWrappers (get >>= next) := by
  refine fun run => ⟨(each run run).1, fun other package names => ?_⟩
  exact (congrArg (fun next => StateT.run next other) (same run other package)).trans
    ((each run run).2 other package names)

theorem bindsRead {next : Run → Binds α}
    (same : ∀ run other, other.package = run.package → next other = next run)
    (each : ∀ run, NamesWrappers (next run).run) :
    NamesWrappers (getThe Run >>= next).run := by
  refine fun run => ⟨(each run run).1, fun other package names => ?_⟩
  exact (congrArg (fun next => StateT.run (ExceptT.run next) other) (same run other package)).trans
    ((each run run).2 other package names)

/-- A step that may fail, and what follows if it does not. -/
theorem binds {compute : Binds α} {next : α → Binds β} (first : NamesWrappers compute.run)
    (second : ∀ value, NamesWrappers (next value).run) :
    NamesWrappers (compute >>= next).run := by
  rw [ExceptT.run_bind]
  refine first.bind fun result => ?_
  cases result with
  | ok value => exact second value
  | error error => exact pure _

theorem lift {compute : StateM Run α} (names : NamesWrappers compute) :
    NamesWrappers (liftM compute : Binds α).run := names.bind fun _ => pure _

theorem foldlM {ι : Type} {step : α → ι → Binds α} (each : ∀ draft item,
    NamesWrappers (step draft item).run) (items : List ι) (draft : α) :
    NamesWrappers (items.foldlM step draft).run := by
  induction items generalizing draft with
  | nil => exact pure _
  | cons item rest ih =>
      rw [List.foldlM_cons]
      exact binds (each draft item) ih

end NamesWrappers

namespace Index

variable (index : Index)

theorem namesWrappers_bindCallable (callable : Callable) (symbol : String) :
    NamesWrappers (index.bindCallable callable symbol) := by
  unfold bindCallable
  split
  · exact .pure _
  · exact .bind (.wrapperName _ _) fun _ => .pure _

theorem namesWrappers_bindFunction (draft : BridgeDraft) (function : FunctionStub) :
    NamesWrappers (index.bindFunction draft function).run := by
  unfold bindFunction
  split
  · exact .pure _
  · exact .pure _
  · split
    · exact .pure _
    · refine .bindsRead (fun _ _ package => by rw [package]) fun run => ?_
      exact .binds (.lift (index.namesWrappers_bindCallable _ _)) fun _ => .pure _

theorem namesWrappers_bindGetter (draft : BridgeDraft) (entry : StubId × Getter) :
    NamesWrappers (bindGetter draft entry) := by
  refine .reads (fun _ _ package => by rw [package]) fun run => .bind ?_ fun _ => .pure _
  unfold Getter.bind
  split
  · exact .bind (.wrapperName _ _) fun _ => .pure _
  · exact .bind (.wrapperName _ _) fun _ => .pure _

theorem namesWrappers_bindSetter (draft : BridgeDraft) (entry : StubId × Setter) :
    NamesWrappers (bindSetter draft entry) := by
  refine .reads (fun _ _ package => by rw [package]) fun run => .bind ?_ fun _ => .pure _
  exact .bind (.wrapperName _ _) fun _ => .pure _

/-- Whether it fails or not, the bridge only takes names for wrappers. -/
theorem namesWrappers_bridge (stubs : StubTree) (table : BridgeTable) :
    NamesWrappers (index.bridge stubs table).run := by
  unfold bridge
  refine .binds (.foldlM index.namesWrappers_bindFunction _ _) fun draft => ?_
  refine .binds (.foldlM (fun draft entry => .lift (namesWrappers_bindGetter draft entry)) _ _) ?_
  intro draft
  refine .binds (.foldlM (fun draft entry => .lift (namesWrappers_bindSetter draft entry)) _ _) ?_
  exact fun draft => .pure _

end Index

end NativeBindings
