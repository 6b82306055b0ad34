import NativeBindings.Proofs.Build.Library
import NativeBindings.Proofs.Closure.References

namespace NativeBindings

/-! # No undefined references

Stubs use known names only, and a declaration that was built declares every name by
which it is referred to.  What is left undefined was reported.
-/

namespace Index

variable {index : Index} {run : Run} {decl : Declaration} {built : Built}

theorem ParameterGiven.known {takesStrings : Bool} {type : QualType} {target : TargetType}
    (given : index.ParameterGiven run takesStrings type target) : index.AllKnown run target := by
  cases given with
  | string => exact (allKnown_primitive _).withNullable
  | value _ answers => exact answers.represented.known.1

theorem ResultGiven.known {type : QualType} {target : TargetType}
    (given : index.ResultGiven run type target) : index.AllKnown run target := by
  cases given with
  | void => exact allKnown_primitive _
  | value _ answers => exact answers.represented.known.1

theorem ParametersGiven.known {takesStrings isVariadic : Bool} {parameters : List Parameter}
    {stubs : List ParameterStub}
    (given : index.ParametersGiven run takesStrings isVariadic parameters stubs) :
    ∀ stub ∈ stubs, index.AllKnown run stub.type := by
  induction given with
  | nil => exact nofun
  | further =>
      intro stub member
      cases List.mem_singleton.mp member
      exact (allKnown_primitive _).withNullable
  | cons type _ ih =>
      intro stub member
      rcases List.mem_cons.mp member with rfl | later
      · exact type.known
      · exact ih stub later

theorem SignatureGiven.known {takesStrings isVariadic : Bool} {parameters : List Parameter}
    {result : QualType} {stub : FunctionStub}
    (given : index.SignatureGiven run takesStrings isVariadic parameters result stub.parameters
      stub.result)
    (receiver : ∀ type ∈ stub.receiver, index.AllKnown run type) :
    ∀ type ∈ stub.types, index.AllKnown run type := by
  intro type member
  rw [FunctionStub.types, List.mem_append, List.mem_cons, Option.mem_toList] at member
  rcases member with ofParameter | rfl | ofReceiver
  · obtain ⟨parameter, listed, rfl⟩ := List.mem_map.mp ofParameter
    exact given.parameters.known parameter listed
  · exact given.result.known
  · exact receiver type ofReceiver

theorem PropertyStub.known {stub : PropertyStub} (type : index.AllKnown run stub.type)
    (receiver : ∀ type ∈ stub.receiver, index.AllKnown run type) :
    ∀ type ∈ stub.types, index.AllKnown run type := by
  intro other member
  rw [PropertyStub.types, List.mem_cons, Option.mem_toList] at member
  rcases member with rfl | ofReceiver
  · exact type
  · exact receiver other ofReceiver

theorem Answers.known_placed {type : QualType} {representation : Representation}
    (answers : index.Answers run type representation) :
    index.AllKnown run representation.placed := by
  obtain ⟨target, pointed⟩ := answers.represented.known
  unfold Representation.placed
  split
  · exact pointed
  · split
    · exact target.withNullable
    · exact target

theorem Answers.known_aliasee {type : QualType} {representation : Representation}
    (answers : index.Answers run type representation) :
    index.AllKnown run (if representation.info.isRecord then representation.pointed
      else representation.target.nonNull) := by
  obtain ⟨target, pointed⟩ := answers.represented.known
  split
  · exact pointed
  · exact target.withNullable

theorem MembersGiven.known {container : DeclId} {receiver : Option TargetType}
    {methods : List ObjCMethod} {properties : List ObjCProperty}
    {functions : List FunctionStub} {stubs : List PropertyStub}
    (given : index.MembersGiven run container receiver methods properties functions stubs)
    (known : ∀ type ∈ receiver, index.AllKnown run type) :
    ∀ type ∈ stubs.flatMap (·.types) ++ functions.flatMap (·.types), index.AllKnown run type := by
  intro type member
  rcases List.mem_append.mp member with ofProperty | ofFunction
  · obtain ⟨stub, listed, inside⟩ := List.mem_flatMap.mp ofProperty
    obtain ⟨property, -, propertyGiven⟩ := exists_of_forall₂ given.properties listed
    obtain ⟨representation, answers, same⟩ := propertyGiven.type
    exact PropertyStub.known (same ▸ answers.represented.known.1)
      (propertyGiven.receiver ▸ known) type inside
  · obtain ⟨stub, listed, inside⟩ := List.mem_flatMap.mp ofFunction
    obtain ⟨method, -, methodGiven⟩ := exists_of_forall₂ given.functions listed
    exact methodGiven.signature.known (methodGiven.receiver ▸ known) type inside

/-- The types of a class whose parts use known names. -/
private theorem known_class {stub : ClassStub}
    (kind : ∀ type ∈ stub.kind.types, index.AllKnown run type)
    (supertypes : ∀ type ∈ stub.supertypes, index.AllKnown run type)
    (members : ∀ type ∈ stub.properties.flatMap (·.types) ++ stub.functions.flatMap (·.types),
      index.AllKnown run type) :
    ∀ type ∈ [StubElement.ofClass stub].flatMap (·.types), index.AllKnown run type := by
  intro type member
  rw [List.flatMap_singleton, StubElement.types, ClassStub.types, List.append_assoc,
    List.append_assoc, List.mem_append, List.mem_append] at member
  rcases member with ofKind | ofSupertype | ofMember
  · exact kind type ofKind
  · exact supertypes type ofSupertype
  · exact members type ofMember

private theorem known_nothing : ∀ type ∈ ([] : List TargetType), index.AllKnown run type :=
  List.forall_mem_nil _

private theorem known_none : ∀ type ∈ (none : Option TargetType), index.AllKnown run type :=
  nofun

private theorem known_interop_only {name : String} :
    ∀ type ∈ [TargetType.interop name], index.AllKnown run type := by
  intro type member
  cases List.mem_singleton.mp member
  exact allKnown_interop name

private theorem known_constants {type : TargetType} {entries : List EnumEntry}
    {constants : List StubElement} (known : index.AllKnown run type)
    (given : List.Forall₂ (ConstantGiven type) entries constants) :
    ∀ type ∈ constants.flatMap (·.types), index.AllKnown run type := by
  intro other member
  obtain ⟨element, listed, inside⟩ := List.mem_flatMap.mp member
  obtain ⟨entry, -, id, rfl⟩ := exists_of_forall₂ given listed
  cases List.mem_singleton.mp inside
  exact known

private theorem known_protocols {ids : List DeclId} {types : List TargetType}
    (given : List.Forall₂ (index.ProtocolGiven run) ids types) :
    ∀ type ∈ types, index.AllKnown run type := by
  intro type member
  obtain ⟨id, -, protocolGiven⟩ := exists_of_forall₂ given member
  cases protocolGiven with
  | named found named =>
      exact known_of_reference (mem_declarations_objcProtocol found) (.objcProtocol named)

theorem ClassGiven.known {id : DeclId} {type : TargetType}
    (given : index.ClassGiven run id type) : index.AllKnown run type := by
  cases given with
  | named found named =>
      exact known_of_reference (mem_declarations_objcClass found) (.objcClass named)

theorem SuperclassGiven.known {id? : Option DeclId} {type : TargetType}
    (given : index.SuperclassGiven run id? type) : index.AllKnown run type := by
  cases given with
  | root => exact allKnown_interop _
  | inherited given => exact given.known

/-- Whatever a declaration gives, it uses known names. -/
theorem Gives.known (gives : index.Gives run decl built) (declared : decl ∈ index.declarations) :
    ∀ type ∈ built.elements.flatMap (·.types), index.AllKnown run type := by
  cases gives with
  | forwardStruct => exact known_class known_nothing known_interop_only known_nothing
  | struct _ _ fields =>
      refine known_class known_nothing known_interop_only fun type member => ?_
      simp only [List.flatMap_nil, List.append_nil] at member
      obtain ⟨stub, listed, inside⟩ := List.mem_flatMap.mp member
      obtain ⟨field, -, given⟩ := fields stub listed
      obtain ⟨representation, answers, same⟩ := given.type
      have own : index.AllKnown run stub.type := same ▸ answers.known_placed
      exact PropertyStub.known own (given.receiver ▸ known_none) type inside
  | anonymousEnum _ base _ constants => exact known_constants base.represented.known.1 constants
  | strictEnum _ _ base =>
      refine known_class (fun type member => ?_) known_interop_only known_nothing
      cases List.mem_singleton.mp member
      exact base.represented.known.1
  | openEnum named isOpen base _ constants =>
      intro type member
      simp only [List.flatMap_append, List.flatMap_cons, List.flatMap_nil, StubElement.types,
        List.append_nil, List.mem_append, List.mem_singleton] at member
      rcases member with (rfl | rfl) | ofConstant
      · exact base.represented.known.1
      · exact base.represented.known.2
      · have known := known_of_reference declared (.enumeration named)
        exact known_constants known constants type ofConstant
  | namesItself => exact known_nothing
  | typedef _ _ aliased =>
      intro type member
      cases List.mem_singleton.mp member
      exact aliased.known_aliasee
  | keptTypedef _ aliased =>
      intro type member
      simp only [List.flatMap_cons, List.flatMap_nil, StubElement.types, List.append_nil,
        List.mem_append, List.mem_singleton] at member
      rcases member with rfl | rfl
      · exact aliased.known_aliasee
      · exact aliased.represented.known.2
  | nativeClass _ methods =>
      refine known_class known_nothing known_interop_only fun type member => ?_
      simp only [List.flatMap_nil, List.nil_append] at member
      obtain ⟨stub, listed, inside⟩ := List.mem_flatMap.mp member
      obtain ⟨method, -, given⟩ := exists_of_forall₂ methods listed
      exact given.signature.known (given.receiver ▸ known_none) type inside
  | objcProtocol _ protocols members =>
      refine known_class known_nothing (fun type member => ?_) (members.known known_none)
      rcases List.mem_cons.mp member with rfl | later
      · exact allKnown_interop _
      · exact known_protocols protocols type later
  | objcClass _ superclass protocols members =>
      refine known_class known_nothing (fun type member => ?_) (members.known known_none)
      rcases List.mem_cons.mp member with rfl | later
      · exact superclass.known
      · exact known_protocols protocols type later
  | objcCategory receiver members =>
      intro type member
      rw [List.flatMap_singleton, StubElement.types, StubTree.types_members, List.mem_append,
        or_comm, ← List.mem_append] at member
      refine members.known (fun type same => ?_) type member
      exact Option.some.inj same ▸ receiver.known
  | readOnlyGlobal answers | «global» _ answers | wrappedMacro answers =>
      intro type member
      cases List.mem_singleton.mp member
      exact answers.known_placed
  | function signature =>
      rw [List.flatMap_singleton]
      exact signature.known known_none
  | noConstant => exact known_nothing
  | stringConstant =>
      intro type member
      cases List.mem_singleton.mp member
      exact allKnown_primitive _
  | constant answers =>
      intro type member
      cases List.mem_singleton.mp member
      exact answers.represented.known.1

theorem not_names_of_none {id : DeclId} {own : Classifier} (typeId : decl.typeId? = some id)
    (unnamed : run.classifiers.get? id = some none) : ¬run.Names decl own := by
  rintro ⟨other, same, known⟩
  cases typeId.symm.trans same
  cases unnamed.symm.trans known

theorem not_keepsName_of_namesItself {decl : TypedefDecl} {aliased : Representation}
    (self : index.namesItself decl) : index.keepsName decl aliased = false := by
  simp [keepsName, self]

/-- A declaration that was built declares what refers to it. -/
theorem Gives.declares (gives : index.Gives run decl built) {classifier : Classifier}
    (reference : index.Reference run decl classifier) :
    classifier ∈ built.elements.flatMap (·.declared) := by
  cases reference with
  | struct named =>
      cases gives with
      | forwardStruct _ given | struct _ given =>
          cases named.unique given
          exact List.mem_singleton_self _
  | nativeClass named =>
      cases gives with
      | nativeClass given =>
          cases named.unique given
          exact List.mem_singleton_self _
  | objcClass named =>
      cases gives with
      | objcClass given =>
          cases named.unique given
          exact List.mem_singleton_self _
  | objcProtocol named =>
      cases gives with
      | objcProtocol given =>
          cases named.unique given
          exact List.mem_singleton_self _
  | enumeration named =>
      cases gives with
      | anonymousEnum unnamed => exact absurd named (not_names_of_none rfl unnamed)
      | strictEnum given | openEnum given =>
          cases named.unique given
          exact List.mem_cons_self
  | strictVariable named strict =>
      cases gives with
      | anonymousEnum unnamed => exact absurd named (not_names_of_none rfl unnamed)
      | strictEnum given =>
          cases named.unique given
          exact List.mem_cons_of_mem _ List.mem_cons_self
      | openEnum _ isOpen => cases isOpen.symm.trans strict
  | openVariable named isOpen =>
      cases gives with
      | anonymousEnum unnamed => exact absurd named (not_names_of_none rfl unnamed)
      | strictEnum _ strict => cases isOpen.symm.trans strict
      | openEnum given =>
          cases named.unique given
          exact List.mem_cons_of_mem _ List.mem_cons_self
  | typedef named aliased keeps =>
      cases gives with
      | namesItself self => cases (not_keepsName_of_namesItself self).symm.trans keeps
      | typedef _ given | keptTypedef given =>
          cases named.unique given
          exact List.mem_cons_self
  | typedefVariable named aliased keeps =>
      cases gives with
      | namesItself self => cases (not_keepsName_of_namesItself self).symm.trans keeps
      | typedef _ _ answers through =>
          rw [aliased.unique answers.represented] at keeps
          cases through.symm.trans keeps
      | keptTypedef given =>
          cases named.unique given
          exact List.mem_cons_of_mem _ List.mem_cons_self

/-- A declaration whose own attempt fails in a build that starts in `run`. -/
def LeavesOut (index : Index) (run : Run) (decl : Declaration) (error : BuildError) : Prop :=
  (decl, .error error) ∈ ((index.outcomes (index.wanted run.config)).run run).1

theorem mem_wanted {config : Config} (declared : decl ∈ index.declarations)
    (typed : decl.typeId?.isSome) : decl ∈ index.wanted config := by
  refine List.mem_filter.mpr ⟨declared, ?_⟩
  cases decl with
  | function | «global» | macroConstant | wrappedMacro | objcCategory => cases typed
  | _ => rfl

section Build

variable {after : Run} {outcomes : List Outcome} (builds : index.Builds run outcomes after)

include builds

theorem Builds.known {type : TargetType}
    (member : type ∈ (Library.ofOutcomes outcomes).stubs.types) : index.AllKnown after type := by
  rw [StubTree.types_eq_flatMap,
    ((Library.elements_ofOutcomes outcomes).flatMap_right _).mem_iff, List.flatMap_assoc] at member
  obtain ⟨built, listed, inside⟩ := List.mem_flatMap.mp member
  obtain ⟨decl, declared, gives⟩ := builds.of_mem_built listed
  exact gives.known declared type inside

/-- What refers to a declaration is declared by the library, unless the attempt at the
declaration failed. -/
theorem Builds.declares {classifier : Classifier} (declared : decl ∈ index.declarations)
    (reference : index.Reference after decl classifier) :
    classifier ∈ (Library.ofOutcomes outcomes).stubs.declared ∨
      ∃ error, (decl, .error error) ∈ outcomes := by
  have attempted : decl ∈ outcomes.map (·.1) :=
    builds.listed ▸ mem_wanted declared reference.typed
  obtain ⟨⟨_, result⟩, listed, rfl⟩ := List.mem_map.mp attempted
  cases result with
  | error error => exact .inr ⟨error, listed⟩
  | ok built =>
      left
      rw [StubTree.declared_eq_flatMap,
        ((Library.elements_ofOutcomes outcomes).flatMap_right _).mem_iff, List.flatMap_assoc]
      have given : built ∈ outcomes.filterMap Outcome.built? :=
        List.mem_filterMap.mpr ⟨_, listed, rfl⟩
      exact List.mem_flatMap.mpr ⟨built, given, (builds.gives listed).declares reference⟩

theorem Builds.closed {type : TargetType}
    (member : type ∈ (Library.ofOutcomes outcomes).stubs.types) {classifier : Classifier}
    (inside : classifier ∈ type.classifiers) :
    classifier.IsBuiltIn ∨ classifier ∈ (Library.ofOutcomes outcomes).stubs.declared ∨
      ∃ decl ∈ index.declarations, ∃ error, (decl, .error error) ∈ outcomes ∧
        ⟨decl.kind, decl.displayName, error.report⟩ ∈ (Library.ofOutcomes outcomes).skipped ∧
        ∃ own, after.Names decl own ∧
          (classifier = own ∨ classifier = own.nested "Var" ∨ classifier = own.variableOf) := by
  rcases builds.known member classifier inside with builtIn | ⟨decl, declared, reference⟩
  · exact .inl builtIn
  · rcases builds.declares declared reference with known | ⟨error, failed⟩
    · exact .inr (.inl known)
    · refine .inr (.inr ⟨decl, declared, error, failed, ?_, reference.companion⟩)
      rw [Library.skipped_ofOutcomes]
      exact List.mem_filterMap.mpr ⟨_, failed, rfl⟩

end Build

/-- Every build ends well, and every name in a type of its tree is the target's own or
declared by the tree, or else the name of a declaration that the build left out and
reported.  Without reports no name is undefined. -/
theorem references_closed (index : Index) (run : Run) :
    ∃ library after, index.build.run run = (.ok library, after) ∧
      (∀ type ∈ library.stubs.types, ∀ classifier ∈ type.classifiers,
        classifier.IsBuiltIn ∨ classifier ∈ library.stubs.declared ∨
          ∃ decl ∈ index.declarations, ∃ error, index.LeavesOut run decl error ∧
            ⟨decl.kind, decl.displayName, error.report⟩ ∈ library.skipped ∧
            ∃ own, after.Names decl own ∧
              (classifier = own ∨ classifier = own.nested "Var" ∨ classifier = own.variableOf)) ∧
      (library.skipped = [] → ∀ type ∈ library.stubs.types, ∀ classifier ∈ type.classifiers,
        classifier.IsBuiltIn ∨ classifier ∈ library.stubs.declared) := by
  obtain ⟨outcomes, after, builds⟩ := index.exists_builds run
  refine ⟨_, after, builds.build_run, ?_, fun silent type member classifier inside => ?_⟩
  · unfold LeavesOut
    rw [show (index.outcomes (index.wanted run.config)).run run = _ from builds]
    exact fun type member classifier inside => builds.closed member inside
  · rcases builds.closed member inside with
      builtIn | known | ⟨decl, -, error, -, reported, -⟩
    · exact .inl builtIn
    · exact .inr known
    · rw [silent] at reported
      cases reported

end Index

end NativeBindings
