import NativeBindings.Proofs.Mapping.Represented
import NativeBindings.Proofs.Native.Declared

namespace NativeBindings

/-! # What the mapper keeps of a run

The mapper changes a run only by naming declarations of the index, and never asks for
the name of an enumeration without one.  An invariant that survives such naming survives
every question.
-/

/-- Does a declaration introduce a type with a name of its own? -/
def Declaration.hasTypeName : Declaration → Bool
  | .enumeration decl => decl.name.isSome
  | .struct _ | .typedef _ | .nativeClass _ | .objcProtocol _ | .objcClass _ => true
  | .function _ | .global _ | .macroConstant _ | .wrappedMacro _ | .objcCategory _ => false

namespace Index

variable {index : Index} {run : Run} {decl : Declaration} {id : DeclId}

theorem naming_eq_unnamed_iff (platform : Platform) :
    index.naming platform decl = .unnamed ↔ decl.hasTypeName = false := by
  cases decl with
  | struct decl | enumeration decl | nativeClass decl | objcProtocol decl | objcClass decl =>
      unfold naming Declaration.hasTypeName
      grind
  | _ => simp [naming, Declaration.hasTypeName]

theorem decideClassifier_run :
    ((index.decideClassifier decl id).run run).1.isSome = decl.hasTypeName ∧
      ((index.decideClassifier decl id).run run).2.classifiers = run.classifiers := by
  have unnamed : index.naming run.config.platform decl = .unnamed ↔ decl.hasTypeName = false :=
    naming_eq_unnamed_iff run.config.platform
  rw [decideClassifier_run_naming]
  cases naming : index.naming run.config.platform decl with
  | unnamed => exact ⟨(unnamed.mp naming).symm, rfl⟩
  | named name | forward package name =>
      have hasName : decl.hasTypeName = true := by simpa [naming] using unnamed
      exact ⟨hasName.symm, rfl⟩
  | numbered =>
      have hasName : decl.hasTypeName = true := by simpa [naming] using unnamed
      refine ⟨hasName.symm, ?_⟩
      change ((Run.anonymousNumber id).run run).2.classifiers = _
      rw [Run.anonymousNumber_run]
      split <;> rfl

/-- What an enumeration is called is up to nothing but its name and the package. -/
theorem decideClassifier_enumeration (decl : EnumDecl) (id : DeclId) (run : Run) :
    (index.decideClassifier (.enumeration decl) id).run run =
      (decl.name.map fun name => ⟨run.package, simpleName name⟩, run) := by
  cases name : decl.name <;> simp [decideClassifier, naming, name] <;> rfl

/-- A question for a name adds the answer for that declaration alone. -/
theorem get?_classifier {wanted : DeclId} {answer : Option Classifier}
    (found : ((index.classifier decl).run run).2.classifiers.get? wanted = some answer) :
    run.classifiers.get? wanted = some answer ∨
      decl.typeId? = some wanted ∧ answer.isSome = decl.hasTypeName := by
  cases typeId : decl.typeId? with
  | none =>
      rw [index.classifier_run_untyped typeId] at found
      exact .inl found
  | some id =>
      cases known : run.classifiers.get? id with
      | some other =>
          rw [index.classifier_run_known typeId known] at found
          exact .inl found
      | none =>
          obtain ⟨decided, others⟩ := @decideClassifier_run index run decl id
          rw [index.classifier_run_new typeId known, others, SlotMap.get?_insert] at found
          split at found
          case isTrue same =>
            cases found
            exact .inr ⟨congrArg some same, decided⟩
          case isFalse => exact .inl found

end Index

/-- A computation that keeps an invariant of the run. -/
def Keeps {α : Type} (holds : Run → Prop) (compute : StateM Run α) : Prop :=
  ∀ run, holds run → holds (compute.run run).2

namespace Keeps

variable {α β : Type} {holds : Run → Prop}

theorem pure (value : α) : Keeps holds (Pure.pure value) := fun _ kept => kept

theorem bind {compute : StateM Run α} {next : α → StateM Run β} (first : Keeps holds compute)
    (second : ∀ value, Keeps holds (next value)) : Keeps holds (compute >>= next) :=
  fun run kept => second _ _ (first run kept)

/-- An optional step, and what follows if it has a value. -/
theorem option {ask : Represents α} {next : α → Represents β} (first : Keeps holds ask.run)
    (second : ∀ value, Keeps holds (next value).run) : Keeps holds (ask >>= next).run := by
  rw [OptionT.run_bind]
  refine first.bind fun result => ?_
  cases result with
  | some value => exact second value
  | none => exact pure _

/-- What the index alone decides changes nothing. -/
theorem ofOption {value? : Option α} {next : α → Represents β}
    (second : ∀ value, value? = some value → Keeps holds (next value).run) :
    Keeps holds (OptionT.mk (Pure.pure value?) >>= next).run := by
  cases found : value? with
  | some value => exact second value found
  | none => exact pure none

theorem failure : Keeps holds (failure : Represents α).run := pure none

/-- What is read off the run changes nothing. -/
theorem get {next : Run → Represents β} (second : ∀ run, Keeps holds (next run).run) :
    Keeps holds (getThe Run >>= next).run := fun run kept => second run run kept

end Keeps

namespace Index

variable {index : Index} {holds : Run → Prop}
  (named : ∀ decl ∈ index.declarations, decl.hasTypeName → Keeps holds (index.classifier decl))

include named

theorem keeps_representRecord (id : DeclId) : Keeps holds (index.representRecord id).run := by
  unfold representRecord
  split
  · rename_i decl found
    refine .ofOption fun layout _ => ?_
    exact .option (named _ (mem_declarations_struct found) rfl) fun _ => .pure _
  · refine .ofOption fun decl found => ?_
    exact .option (named _ (mem_declarations_nativeClass found) rfl) fun _ => .pure _

theorem keeps_representObject (id : DeclId) : Keeps holds (index.representObject id).run := by
  unfold representObject
  split
  · rename_i decl found
    exact .option (named _ (mem_declarations_objcClass found) rfl) fun _ => .pure _
  · refine .ofOption fun decl found => ?_
    exact .option (named _ (mem_declarations_objcProtocol found) rfl) fun _ => .pure _

section Follow

variable {follow : QualType → Represents Representation}
  (follows : ∀ type, Keeps holds (follow type).run)

include follows

theorem keeps_representEnumeration (id : DeclId) :
    Keeps holds (index.representEnumeration follow id).run := by
  unfold representEnumeration
  refine .ofOption fun decl found => ?_
  split
  · exact follows _
  · rename_i isNamed
    have hasName : decl.name.isSome := by simpa [Option.isSome_iff_ne_none] using isNamed
    refine .option (named _ (mem_declarations_enumeration found) hasName) fun classifier => ?_
    refine .get fun run => ?_
    split
    · exact .pure _
    · exact .option (follows _) fun _ => .pure _

theorem keeps_representTypedef (id : DeclId) :
    Keeps holds (index.representTypedef follow id).run := by
  unfold representTypedef
  refine .ofOption fun decl found => ?_
  refine .option (follows decl.aliased) fun aliased => ?_
  split
  · exact .option (named _ (mem_declarations_typedef found) rfl) fun _ => .pure _
  · exact .pure _

omit named follows in
theorem keeps_callback {spelling : String} {isConst variadic : Bool} {result : QualType}
    {arguments : List QualType} (values : Keeps holds (index.targetsOf follow arguments).run)
    (value : Keeps holds (index.representShape follow result.shape).run) :
    Keeps holds (index.representShape follow
      (.pointer ⟨spelling, isConst, .function result arguments variadic⟩)).run := by
  cases variadic with
  | true =>
      obtain ⟨_, _, shape⟩ := result
      exact .pure none
  | false =>
      rw [representShape_callback]
      refine .option values fun parameters => ?_
      split
      · exact .pure _
      · exact .option value fun _ => .pure _

theorem keeps_representShapes :
    (∀ shape, Keeps holds (index.representShape follow shape).run) ∧
      ∀ arguments, Keeps holds (index.targetsOf follow arguments).run := by
  apply Index.representShape.mutual_induct index follow
    (fun shape => Keeps holds (index.representShape follow shape).run)
    (fun arguments => Keeps holds (index.targetsOf follow arguments).run)
  case case5 | case6 => exact fun _ _ => .get fun _ => .pure _
  case case7 => exact fun _ => .pure _
  case case9 => exact fun _ _ _ _ _ _ values value => keeps_callback values value
  case case10 => exact fun _ _ _ _ _ _ _ _ values value => keeps_callback values value
  case case11 =>
    intro spelling isConst shape notVoid notFunction decl forward
    rw [representShape_pointer index follow notVoid notFunction, forward]
    exact .option (named _ (mem_declarations_forwardStruct forward) rfl) fun _ => .pure _
  case case12 =>
    intro spelling isConst shape notVoid notFunction plain memory
    rw [representShape_pointer index follow notVoid notFunction, plain]
    exact .option memory fun _ => .pure _
  case case13 | case14 | case19 => exact fun _ _ _ memory => .option memory fun _ => .pure _
  case case15 => exact keeps_representRecord named
  case case16 => exact keeps_representEnumeration named follows
  case case17 => exact keeps_representTypedef named follows
  case case18 => exact fun _ _ _ _ memory => .option memory fun _ => .pure _
  case case20 => exact keeps_representObject named
  case case23 =>
    intro _ _ shape rest first others
    unfold targetsOf
    exact .option first fun _ => .option others fun _ => .pure _
  case case1 | case4 | case21 => exact .pure _
  case case22 => exact .pure _
  case case2 => exact fun _ _ _ => .pure none
  case case3 => exact fun _ => .pure none
  case case8 => exact fun _ _ => .pure _

end Follow

theorem keeps_representWithin (rounds : Nat) (type : QualType) :
    Keeps holds (index.representWithin rounds type).run := by
  induction rounds generalizing type with
  | zero => exact (keeps_representShapes named fun _ => .pure none).1 type.shape
  | succ rounds ih => exact (keeps_representShapes named ih).1 type.shape

/-- A question to the mapper keeps what naming keeps. -/
theorem keeps_represent (type : QualType) : Keeps holds (index.represent type).run :=
  keeps_representWithin named _ type

end Index

end NativeBindings
