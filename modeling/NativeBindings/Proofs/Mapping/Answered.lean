import NativeBindings.Proofs.Mapping.Acyclic

namespace NativeBindings

/-! # Every representation is answered

Every answer of the mapper is a representation.  Without cycles the converse holds too:
a type that is represented in the names of a run is answered in that run, with nothing
new to decide.
-/

theorem Represents.run_bind_some {α β : Type} {ask : Represents α} {next : α → Represents β}
    {run after : Run} {answer : α} (asked : ask.run run = (some answer, after)) :
    (ask >>= next).run run = (next answer).run after := by
  rw [run_bind, asked]

theorem Represents.run_get {β : Type} (next : Run → Represents β) (run : Run) :
    OptionT.run (getThe Run >>= next) run = (next run).run run := rfl

namespace Index

variable {index : Index} {run : Run}

theorem named_run {decl : Declaration} {classifier : Classifier}
    (named : run.Names decl classifier) :
    (index.named decl).run run = (some classifier, run) := by
  obtain ⟨id, typeId, known⟩ := named
  exact index.classifier_run_known typeId known

/-- The mapper answers for what it meets in a type. -/
def AnswersShape (index : Index) (run : Run) (shape : TypeShape)
    (representation : Representation) : Prop :=
  (index.representShape index.represent shape).run run = (some representation, run)

theorem AnswersShape.answers (acyclic : index.Acyclic) {type : QualType}
    {representation : Representation}
    (answers : index.AnswersShape run type.shape representation) :
    index.Answers run type representation := by
  rw [Answers, represent_eq acyclic]
  exact answers

theorem targetsOf_run {arguments : List QualType} {values : List Representation}
    (same : values.length = arguments.length)
    (each : ∀ (place : Nat) (argument : QualType) (found : Representation),
      arguments[place]? = some argument → values[place]? = some found →
        index.AnswersShape run argument.shape found) :
    (index.targetsOf index.represent arguments).run run =
      (some (values.map (·.target)), run) := by
  induction arguments generalizing values with
  | nil =>
      cases List.length_eq_zero_iff.mp same
      rfl
  | cons argument rest ih =>
      obtain ⟨value, others, rfl⟩ := List.exists_cons_of_length_eq_add_one same
      obtain ⟨_, _, shape⟩ := argument
      have head := each 0 _ _ rfl rfl
      have tail := ih (Nat.succ.inj same) fun place => each (place + 1)
      rw [targetsOf, Represents.run_bind_some head, Represents.run_bind_some tail]
      rfl

/-- What is represented is answered, part by part. -/
theorem Represented.answersShape (acyclic : index.Acyclic) {shape : TypeShape}
    {representation : Representation} (represented : index.Represented run shape representation) :
    index.AnswersShape run shape representation := by
  have behind {type : QualType} {found : Representation}
      (answers : index.AnswersShape run type.shape found) :
      (index.represent type).run run = (some found, run) := answers.answers acyclic
  unfold AnswersShape
  induction represented with
  | bool | pointerToVoid | objcAny => rfl
  | char known | integer known | float known => exact congrArg (·, run) known
  | @pointerToFunction _ _ result arguments values value same _ _ each output =>
      rw [representShape_callback, Represents.run_bind_some (targetsOf_run same each)]
      cases isVoid : result.shape.isVoid with
      | true => rfl
      | false => exact Represents.run_bind_some (output isVoid)
  | pointerToForward forward named =>
      rw [representShape_forward _ _ forward]
      exact Represents.run_bind_some (named_run named)
  | @pointer pointee memory plain inside ih =>
      obtain ⟨spelling, isConst, shape⟩ := pointee
      have notVoid : shape ≠ .void := by
        rintro rfl
        cases inside
      have notFunction : ∀ spelling isConst result arguments variadic,
          shape ≠ .function ⟨spelling, isConst, result⟩ arguments variadic := by
        rintro _ _ _ _ _ rfl
        cases inside
      rw [representShape_pointer index _ notVoid notFunction, plain]
      exact Represents.run_bind_some ih
  | @leftReference pointee _ _ ih | @rightReference pointee _ _ ih =>
      obtain ⟨_, _, shape⟩ := pointee
      exact Represents.run_bind_some ih
  | @array element _ _ _ ih | @openArray element _ _ ih =>
      obtain ⟨_, _, shape⟩ := element
      exact Represents.run_bind_some ih
  | struct found layout named =>
      simp only [representShape, representRecord, found, layout]
      exact Represents.run_bind_some (named_run named)
  | nativeClass missing found named =>
      simp only [representShape, representRecord, missing, found]
      exact Represents.run_bind_some (named_run named)
  | anonymousEnum found unnamed _ ih =>
      rw [representShape, representEnumeration_found _ _ found, if_pos unnamed]
      exact behind ih
  | strictEnum found isNamed named strict =>
      rw [representShape, representEnumeration_found _ _ found, if_neg (by simp [isNamed]),
        Represents.run_bind_some (named_run named), Represents.run_get, if_pos strict]
      rfl
  | openEnum found isNamed named isOpen _ ih =>
      rw [representShape, representEnumeration_found _ _ found, if_neg (by simp [isNamed]),
        Represents.run_bind_some (named_run named), Represents.run_get, if_neg (by simp [isOpen]),
        Represents.run_bind_some (behind ih)]
      rfl
  | seenThrough found _ through ih =>
      rw [representShape, representTypedef_found _ _ found,
        Represents.run_bind_some (behind ih), if_neg (by simp [through])]
      rfl
  | kept found _ keeps named ih =>
      rw [representShape, representTypedef_found _ _ found,
        Represents.run_bind_some (behind ih), if_pos keeps]
      exact Represents.run_bind_some (named_run named)
  | objcClass found named =>
      simp only [representShape, representObject, found]
      exact Represents.run_bind_some (named_run named)
  | objcProtocol missing found named =>
      simp only [representShape, representObject, missing, found]
      exact Represents.run_bind_some (named_run named)

/-- Without cycles, what is represented in the names of a run is what is answered. -/
theorem answers_iff (acyclic : index.Acyclic) {type : QualType} {representation : Representation} :
    index.Answers run type representation ↔
      index.Represented run type.shape representation :=
  ⟨Answers.represented, fun represented => (represented.answersShape acyclic).answers acyclic⟩

end Index

end NativeBindings
