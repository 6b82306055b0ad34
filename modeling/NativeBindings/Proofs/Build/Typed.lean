import NativeBindings.Naming.Manifest
import NativeBindings.Proofs.Build.Contributions
import NativeBindings.Proofs.Build.Types

namespace NativeBindings

/-! # Once all types were built

A declaration of a type asks for its own name before anything can fail, unless it is an
enumeration or a typedef, and what these are called is certain.  So when all types were
built, nothing is left for a run to decide: what follows only finds names that were
certain before, and takes numbers.
-/

namespace Index

variable {index : Index} {run typed after : Run}

/-- An identity belongs to one declaration of a type. -/
theorem KindsApart.unique (apart : index.KindsApart) {first second : Declaration} {id : DeclId}
    (firstListed : first ∈ index.declarations) (secondListed : second ∈ index.declarations)
    (typeId : first.typeId? = some id) (again : second.typeId? = some id) : first = second := by
  have kind := apart first firstListed second secondListed (by simp [typeId])
    (typeId.trans again.symm)
  have found := declaration?_of_mem firstListed typeId
  rw [kind, declaration?_of_mem secondListed again] at found
  exact (Option.some.inj found).symm

/-- What enumerations and typedefs are called is certain; all other types are known. -/
def KnowsTypes (index : Index) (run : Run) : Prop :=
  ∀ decl ∈ index.declarations, ∀ id, decl.typeId? = some id → run.classifiers.get? id = none →
    decl.kind = .typedef ∨ decl.kind = .enumeration

/-- An attempt that starts with the name of its declaration leaves it known. -/
private theorem known_of_resolved {decl : Declaration} {id owner : DeclId}
    (typeId : decl.typeId? = some id) {attempt : Attempt (List StubElement)}
    {next : Classifier → Attempt (List StubElement)}
    (starts : attempt = index.resolved decl owner >>= next)
    (isPlain : index.builder decl = attempt.untabled) (run : Run) : ∃ answer,
      ((index.buildDeclaration decl).run.run run).2.classifiers.get? id = some answer := by
  have grows (run : Run) : run ≤ (attempt.run.run run).2 := by
    rw [← index.buildDeclaration_run_untabled isPlain run]
    exact (@leaves_buildDeclaration index run decl).1
  rw [index.buildDeclaration_run_untabled isPlain]
  -- With the name known, the same attempt takes the same way.
  have known := index.classifier_known typeId run
  have again : StateT.run attempt.run ((index.classifier decl).run run).2 =
      StateT.run attempt.run run := by
    have resolves (run : Run) : StateT.run (index.resolved decl owner).run run = _ :=
      index.resolved_run decl owner run
    rw [starts, ExceptT.run_bind, StateT.run_bind, StateT.run_bind, resolves, resolves,
      index.classifier_run_known typeId known]
  have kept := (grows ((index.classifier decl).run run).2).classifiers known
  rw [again] at kept
  exact ⟨_, kept⟩

/-- Once its attempt is over, a type is known, unless its name is certain anyway. -/
theorem known_of_attempt {decl : Declaration} {id : DeclId} (typeId : decl.typeId? = some id)
    (run : Run) : (∃ answer,
      ((index.buildDeclaration decl).run.run run).2.classifiers.get? id = some answer) ∨
        decl.kind = .typedef ∨ decl.kind = .enumeration := by
  cases decl with
  | struct decl => exact .inl (known_of_resolved typeId rfl rfl run)
  | nativeClass decl => exact .inl (known_of_resolved typeId rfl rfl run)
  | objcProtocol decl => exact .inl (known_of_resolved typeId rfl rfl run)
  | objcClass decl => exact .inl (known_of_resolved typeId rfl rfl run)
  | typedef decl => exact .inr (.inl rfl)
  | enumeration decl => exact .inr (.inr rfl)
  | _ => cases typeId

/-- After all types were built, they are known. -/
theorem knowsTypes_of_outcomes {outcomes : List Outcome}
    (ends : (index.outcomes index.types.declarations).run run = (outcomes, typed)) :
    index.KnowsTypes typed := by
  intro decl declared id typeId unknown
  have wanted : decl ∈ outcomes.map (·.1) := by
    rw [listed_of_outcomes ends]
    rw [declarations_eq, List.mem_append] at declared
    refine declared.resolve_right fun leaf => ?_
    cases typeId.symm.trans (typeId?_of_mem_leaves leaf)
  obtain ⟨⟨decl, result⟩, member, rfl⟩ := List.mem_map.mp wanted
  obtain ⟨start, last, attempt, le⟩ := attempted_of_mem ends member
  rcases @known_of_attempt index _ _ typeId start with ⟨answer, known⟩ | certain
  · rw [attempt] at known
    cases unknown.symm.trans (le.classifiers known)
  · exact certain

/-- What a run is like that goes on from `typed` and decides nothing. -/
structure Follows (index : Index) (typed run : Run) : Prop where
  le : typed ≤ run
  anonymousStructs : run.anonymousStructs = typed.anonymousStructs
  forwardDeclarations : run.forwardDeclarations = typed.forwardDeclarations
  strictness : run.strictness = typed.strictness
  names : ∀ decl ∈ index.declarations, ∀ id answer, decl.typeId? = some id →
    run.classifiers.get? id = some answer → answer = ((index.classifier decl).run typed).1

theorem Follows.refl (index : Index) (typed : Run) : index.Follows typed typed where
  le := le_rfl
  anonymousStructs := rfl
  forwardDeclarations := rfl
  strictness := rfl
  names decl _ id answer typeId known := by rw [index.classifier_run_known typeId known]

theorem Follows.manifest (follows : index.Follows typed run) : run.manifest = typed.manifest := by
  unfold Run.manifest Run.enumerationNames
  rw [follows.le.config, follows.le.package, follows.strictness]
  have forward (name : String) : run.forwardName name = typed.forwardName name := by
    unfold Run.forwardName
    rw [follows.forwardDeclarations]
  rw [funext forward]

/-- Numbers are no decisions. -/
theorem Follows.freshStub (follows : index.Follows typed run) :
    index.Follows typed { run with nextStub := run.nextStub + 1 } where
  le := le_trans follows.le (Run.grows_freshStub run)
  anonymousStructs := follows.anonymousStructs
  forwardDeclarations := follows.forwardDeclarations
  strictness := follows.strictness
  names := follows.names

/-- A name that is certain depends on no more than the package. -/
private theorem decideClassifier_certain {decl : Declaration}
    (certain : decl.kind = .typedef ∨ decl.kind = .enumeration) (id : DeclId) :
    ∃ name? : Option String, ∀ run, (index.decideClassifier decl id).run run =
      (name?.map (⟨run.package, ·⟩), run) := by
  cases decl with
  | enumeration decl =>
      refine ⟨decl.name.map simpleName, fun run => ?_⟩
      rw [decideClassifier_enumeration, Option.map_map]
      rfl
  | typedef decl => exact ⟨some (simpleName decl.name), fun _ => rfl⟩
  | _ => simp [Declaration.kind] at certain

/-- What a run decides that knows all types is what was certain before. -/
theorem Follows.classifier (follows : index.Follows typed run) (apart : index.KindsApart)
    (knows : index.KnowsTypes typed) {decl : Declaration} (declared : decl ∈ index.declarations) :
    ((index.classifier decl).run run).1 = ((index.classifier decl).run typed).1 ∧
      index.Follows typed ((index.classifier decl).run run).2 := by
  cases typeId : decl.typeId? with
  | none =>
      rw [index.classifier_run_untyped typeId, index.classifier_run_untyped typeId]
      exact ⟨rfl, follows⟩
  | some id =>
      cases known : run.classifiers.get? id with
      | some answer =>
          rw [index.classifier_run_known typeId known]
          exact ⟨follows.names decl declared id answer typeId known, follows⟩
      | none =>
          have unknown : typed.classifiers.get? id = none := by
            refine Option.eq_none_iff_forall_ne_some.mpr fun answer before => ?_
            cases known.symm.trans (follows.le.classifiers before)
          obtain ⟨name?, decides⟩ := @decideClassifier_certain index decl
            (knows decl declared id typeId unknown) id
          have same : ((index.classifier decl).run run).1 =
              ((index.classifier decl).run typed).1 := by
            rw [index.classifier_run_new typeId known, index.classifier_run_new typeId unknown,
              decides, decides, follows.le.package]
          have le := le_trans follows.le (index.grows_classifier decl run)
          rw [index.classifier_run_new typeId known, decides] at le same ⊢
          refine ⟨same, le, follows.anonymousStructs, follows.forwardDeclarations,
            follows.strictness, ?_⟩
          intro other otherDeclared otherId answer otherTypeId found
          rw [SlotMap.get?_insert] at found
          split at found
          case isTrue here =>
            cases here
            cases apart.unique declared otherDeclared typeId otherTypeId
            exact (Option.some.inj found).symm.trans same
          case isFalse => exact follows.names other otherDeclared otherId answer otherTypeId found

end Index

end NativeBindings
