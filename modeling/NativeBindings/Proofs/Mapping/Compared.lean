import NativeBindings.Proofs.Mapping.Kept
import NativeBindings.Proofs.Run.Comparison

namespace NativeBindings

/-! # The mapper in two runs

If two runs agree on the names of all declarations, the mapper gives representations
that look the same: whether there is one, how it is passed and what kind of value it
stands for does not depend on what anything is called.
-/

namespace View.Same

variable {view : View}

theorem change {first second : Classifier} (same : view.Same first second)
    (change : Classifier → Classifier) : view.Same (change first) (change second) := by
  unfold Same at same ⊢
  simp only [Classifier.smul_def, coarse_unnumbered] at same ⊢
  cases coarse : view.coarse with
  | true => rfl
  | false =>
      simp only [coarse, cond_false] at same ⊢
      rw [same]

theorem ofClassifier {first second : Classifier} (same : view.Same first second) :
    view.Same (TargetType.ofClassifier first) (.ofClassifier second) := by
  unfold Same at same ⊢
  simp only [TargetType.ofClassifier, TargetType.smul_named, same, View.smul_nil]

theorem withNullable {first second : TargetType} (same : view.Same first second)
    (nullable : Bool) : view.Same (first.withNullable nullable) (second.withNullable nullable) := by
  unfold Same at same ⊢
  rw [TargetType.smul_withNullable, same, TargetType.smul_withNullable]

/-- A classifier that both know. -/
theorem classifier (view : View) (classifier : Classifier) : view.Same classifier classifier := by
  simp [Same, Classifier.smul_def]

/-- An answer that both were given. -/
theorem answer (view : View) (answer : Option Classifier) : view.Same answer answer := by
  cases answer with
  | none => rfl
  | some known => exact congrArg some (classifier view known)

theorem interop (view : View) (name : String) :
    view.Same (TargetType.interop name) (.interop name) :=
  (classifier view _).ofClassifier

theorem interopOf (name : String) {first second : TargetType} (same : view.Same first second) :
    view.Same (TargetType.interopOf name first) (.interopOf name second) := by
  have known := classifier view (.interop name)
  unfold Same at same known ⊢
  simp only [TargetType.interopOf, TargetType.generic, TargetType.smul_named, same, known,
    View.smul_cons, View.smul_nil]

theorem functionMemory {parameters others : List TargetType} {result other : TargetType}
    (all : view.Same parameters others) (same : view.Same result other) :
    view.Same (functionMemory parameters result) (functionMemory others other) := by
  refine interopOf "CFunction" ?_
  unfold Same at all same ⊢
  rw [TargetType.smul_function, TargetType.smul_function, all, same]

theorem representation {target pointed other memory : TargetType} {marshalling : Marshalling}
    {info again : TypeInfo} (targets : view.Same target other)
    (memories : view.Same pointed memory) (infos : view.Same info again) :
    view.Same (Representation.mk target pointed marshalling info)
      ⟨other, memory, marshalling, again⟩ := by
  unfold Same at targets memories infos ⊢
  rw [Representation.smul_mk, Representation.smul_mk, targets, memories, infos]

theorem primitive (name : String) {info again : TypeInfo} (infos : view.Same info again) :
    view.Same (Representation.primitive name info) (.primitive name again) :=
  representation (classifier view _).ofClassifier (interop view _) infos

theorem record {first second : Classifier} (same : view.Same first second) {info : TypeInfo}
    (infos : view.Same info info) :
    view.Same (Representation.record first info) (.record second info) :=
  representation (interopOf _ same.ofClassifier) same.ofClassifier infos

theorem reference {first second : TargetType} (same : view.Same first second) :
    view.Same (Representation.reference first) (.reference second) :=
  representation (interopOf _ same) (interopOf _ same) rfl

theorem pointer {first second : TargetType} (same : view.Same first second) :
    view.Same (Representation.pointer (some first)) (.pointer (some second)) :=
  representation ((interopOf _ same).withNullable true) (interopOf _ same) rfl

theorem opaquePointer (view : View) :
    view.Same (Representation.pointer none) (Representation.pointer none) :=
  representation ((interop view _).withNullable true) (interop view _) rfl

theorem array {first second : TargetType} (same : view.Same first second)
    (length : Option UInt64) :
    view.Same (Representation.array first length) (.array second length) :=
  representation ((interopOf _ same).withNullable true) (interopOf _ same) rfl

theorem object {first second : TargetType} (same : view.Same first second) :
    view.Same (Representation.object first) (.object second) :=
  representation same (interopOf _ same) rfl

theorem enumeration {first second : Classifier} (same : view.Same first second)
    {strict : Bool} : view.Same (TypeInfo.enumeration first strict) (.enumeration second strict) :=
  congrArg (TypeInfo.enumeration · strict) same

theorem target {first second : Representation} (same : view.Same first second) :
    view.Same first.target second.target := congrArg Representation.target same

theorem pointed {first second : Representation} (same : view.Same first second) :
    view.Same first.pointed second.pointed := congrArg Representation.pointed same

theorem info {first second : Representation} (same : view.Same first second) :
    view.Same first.info second.info := congrArg Representation.info same

theorem keepsName {first second : Representation} (same : view.Same first second) (index : Index)
    (decl : TypedefDecl) : index.keepsName decl first = index.keepsName decl second := by
  refine same.invariant _ fun view representation => ?_
  obtain ⟨target, pointed, marshalling, info⟩ := representation
  cases info <;> rfl

end View.Same

/-- What numbers are called and whether they have signs is all that the platform decides
about them. -/
theorem View.Allows.integer {view : View} {config other : Config}
    (allows : view.Allows config other) (size : UInt32) (signed : Bool) :
    view.Same (integerRepresentation? config.platform size signed)
      (integerRepresentation? other.platform size signed) := by
  obtain ⟨platform, mode, rfl, fine⟩ := allows
  obtain ⟨name?, named⟩ : ∃ name? : Option String, ∀ signed, integerName? size signed =
      name?.map fun name => if signed then name else "U" ++ name := ⟨_, fun _ => rfl⟩
  simp only [integerRepresentation?, named]
  cases name? with
  | none => rfl
  | some name =>
      refine congrArg some (?_ : view.Same (Representation.primitive _ _) (.primitive _ _))
      cases coarse : view.coarse with
      | false =>
          rw [fine coarse]
          exact .primitive _ rfl
      | true =>
          refine .representation (.ofClassifier ?_) (.ofClassifier ?_) ?_ <;>
            simp [Same, coarse, Classifier.smul_def]

namespace Comparison

/-- Whatever a builder asks of a run, both runs answer alike. -/
structure Simulates (comparison : Comparison) (index : Index) : Prop where
  config : ∀ {run other}, comparison.inStep run other →
    comparison.view.Allows run.config other.config
  classifier : ∀ decl ∈ index.declarations,
    comparison.Agree (index.classifier decl) (index.classifier decl)
  freshStub : comparison.Agree Run.freshStub Run.freshStub

namespace Simulates

variable {comparison : Comparison} {index : Index} (simulates : comparison.Simulates index)

include simulates

theorem named {decl : Declaration} (declared : decl ∈ index.declarations) :
    comparison.Agree (index.named decl).run (index.named decl).run :=
  simulates.classifier decl declared

theorem representRecord (id : DeclId) :
    comparison.Agree (index.representRecord id).run (index.representRecord id).run := by
  unfold Index.representRecord
  split
  · rename_i decl found
    refine .ofOption fun layout _ => ?_
    exact .option (simulates.named (Index.mem_declarations_struct found)) fun _ _ same =>
      .some (same.record rfl)
  · refine .ofOption fun decl found => ?_
    exact .option (simulates.named (Index.mem_declarations_nativeClass found)) fun _ _ same =>
      .some (same.record rfl)

theorem representObject (id : DeclId) :
    comparison.Agree (index.representObject id).run (index.representObject id).run := by
  unfold Index.representObject
  split
  · rename_i decl found
    exact .option (simulates.named (Index.mem_declarations_objcClass found)) fun _ _ same =>
      .some (same.ofClassifier.withNullable true).object
  · refine .ofOption fun decl found => ?_
    exact .option (simulates.named (Index.mem_declarations_objcProtocol found)) fun _ _ same =>
      .some (same.ofClassifier.withNullable true).object

section Follow

variable {follow : QualType → Represents Representation}
  (follows : ∀ type, comparison.Agree (follow type).run (follow type).run)

include follows

theorem representEnumeration (id : DeclId) :
    comparison.Agree (index.representEnumeration follow id).run
      (index.representEnumeration follow id).run := by
  unfold Index.representEnumeration
  refine .ofOption fun decl found => ?_
  split
  · exact follows decl.base
  · refine .option (simulates.named (Index.mem_declarations_enumeration found)) ?_
    intro classifier other same
    refine .readOption simulates.config fun run _ allows => ?_
    obtain ⟨platform, mode, again, -⟩ := allows
    have strict (config : Config) : { config with platform, mode }.isStrict decl =
        config.isStrict decl := rfl
    rw [again, strict]
    split
    · exact .some (.representation same.ofClassifier (same.change (·.nested "Var")).ofClassifier
        same.enumeration)
    · refine .option (follows decl.base) fun base _ sameBase => .some ?_
      exact .representation same.ofClassifier (same.change (·.variableOf)).ofClassifier
        sameBase.info

theorem representTypedef (id : DeclId) :
    comparison.Agree (index.representTypedef follow id).run
      (index.representTypedef follow id).run := by
  unfold Index.representTypedef
  refine .ofOption fun decl found => ?_
  refine .option (follows decl.aliased) fun aliased other same => ?_
  rw [same.keepsName index decl]
  split
  · refine .option (simulates.named (Index.mem_declarations_typedef found)) ?_
    intro classifier again sameName
    have nullable : aliased.target.isNullable = other.target.isNullable :=
      same.target.invariant _ TargetType.isNullable_smul
    have marshalling : aliased.marshalling = other.marshalling :=
      same.invariant Representation.marshalling fun _ _ => rfl
    rw [nullable, marshalling]
    exact .some (.representation (sameName.ofClassifier.withNullable _)
      (sameName.change (·.variableOf)).ofClassifier same.info)
  · exact .some same

omit simulates follows in
theorem callback {spelling : String} {isConst variadic : Bool} {result : QualType}
    {arguments : List QualType}
    (values : comparison.Agree (index.targetsOf follow arguments).run
      (index.targetsOf follow arguments).run)
    (value : comparison.Agree (index.representShape follow result.shape).run
      (index.representShape follow result.shape).run) :
    comparison.Agree
      (index.representShape follow
        (.pointer ⟨spelling, isConst, .function result arguments variadic⟩)).run
      (index.representShape follow
        (.pointer ⟨spelling, isConst, .function result arguments variadic⟩)).run := by
  cases variadic with
  | true =>
      obtain ⟨_, _, shape⟩ := result
      exact .failure
  | false =>
      rw [Index.representShape_callback]
      refine .option values fun parameters others all => ?_
      split
      · exact .some (all.functionMemory (.ofClassifier (.classifier _ _))).pointer
      · exact .option value fun _ _ same => .some (all.functionMemory same.target).pointer

theorem representShapes :
    (∀ shape, comparison.Agree (index.representShape follow shape).run
      (index.representShape follow shape).run) ∧
    ∀ arguments, comparison.Agree (index.targetsOf follow arguments).run
      (index.targetsOf follow arguments).run := by
  apply Index.representShape.mutual_induct index follow
    (fun shape => comparison.Agree (index.representShape follow shape).run
      (index.representShape follow shape).run)
    (fun arguments => comparison.Agree (index.targetsOf follow arguments).run
      (index.targetsOf follow arguments).run)
  case case1 => exact .failure
  case case2 => exact fun _ _ _ => .failure
  case case3 => exact fun _ => .failure
  case case4 => exact .some (.primitive _ rfl)
  case case5 | case6 =>
    exact fun size signed => .readOption simulates.config fun _ _ allows =>
      .pure (allows.integer size signed)
  case case7 =>
    intro size
    refine .pure ?_
    unfold floatRepresentation?
    split
    · exact congrArg some (View.Same.primitive _ rfl)
    · exact congrArg some (View.Same.primitive _ rfl)
    · rfl
  case case8 => exact fun _ _ => .some (.opaquePointer _)
  case case9 => exact fun _ _ _ _ _ _ values value => callback values value
  case case10 => exact fun _ _ _ _ _ _ _ _ values value => callback values value
  case case11 =>
    intro spelling isConst shape notVoid notFunction decl forward
    rw [Index.representShape_pointer index follow notVoid notFunction, forward]
    exact .option (simulates.named (Index.mem_declarations_forwardStruct forward))
      fun _ _ same => .some same.ofClassifier.pointer
  case case12 =>
    intro spelling isConst shape notVoid notFunction plain memory
    rw [Index.representShape_pointer index follow notVoid notFunction, plain]
    exact .option memory fun _ _ same => .some same.pointed.pointer
  case case13 | case14 =>
    exact fun _ _ _ memory => .option memory fun _ _ same => .some same.pointed.reference
  case case15 => exact simulates.representRecord
  case case16 => exact simulates.representEnumeration follows
  case case17 => exact simulates.representTypedef follows
  case case18 =>
    exact fun _ _ _ length memory => .option memory fun _ _ same =>
      .some (same.pointed.array (some length))
  case case19 =>
    exact fun _ _ _ memory => .option memory fun _ _ same => .some (same.pointed.array none)
  case case20 => exact simulates.representObject
  case case21 => exact .some ((View.Same.classifier _ _).ofClassifier.withNullable true).object
  case case22 => exact .some rfl
  case case23 =>
    intro _ _ shape rest first others
    unfold Index.targetsOf
    exact .option first fun _ _ same => .option others fun _ _ all =>
      .some (congrArg₂ List.cons same.target all)

end Follow

theorem representWithin (rounds : Nat) (type : QualType) :
    comparison.Agree (index.representWithin rounds type).run
      (index.representWithin rounds type).run := by
  induction rounds generalizing type with
  | zero => exact (simulates.representShapes fun _ => .failure).1 type.shape
  | succ rounds ih => exact (simulates.representShapes ih).1 type.shape

/-- A question to the mapper has answers that look the same. -/
theorem represent (type : QualType) :
    comparison.Agree (index.represent type).run (index.represent type).run :=
  simulates.representWithin _ type

end Simulates

end Comparison

end NativeBindings
