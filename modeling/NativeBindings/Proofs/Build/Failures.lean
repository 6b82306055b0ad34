import NativeBindings.Proofs.Build.Naming

namespace NativeBindings

/-! # Why declarations are skipped

Builders say where they fail by wrapping the cause, each in a place of its own.  So what a
declaration fails with leads through the declaration, at most one of its members and at
most one part of a signature to its root.  That is something the target does not have,
unless a protocol or class that is named elsewhere is missing.
-/

inductive FailureRoot where
  | unrepresentable (spelling : String)
  | unsupported (description : String)
  | unresolved (id : DeclId)

/-- The part of a signature that fails. -/
inductive FailureSlot where
  | parameter (name : String)
  | result

/-- The member of a class that fails. -/
inductive FailureMember where
  | method (name : String)
  | property (name : String)

namespace FailureRoot

def error : FailureRoot → BuildError
  | .unrepresentable spelling => .unrepresentable spelling
  | .unsupported description => .unsupported description
  | .unresolved id => .unresolved id

/-- The backtraces that a root keeps, if they show a text. -/
def backtraces (shown : String) : FailureRoot → List ErrorSource
  | .unrepresentable _ | .unsupported _ => [.backtrace shown]
  | .unresolved _ => []

/-- Is the root something that the target does not have? -/
def IsLack (root : FailureRoot) : Prop := ∀ id, root ≠ .unresolved id

end FailureRoot

def FailureSlot.around : FailureSlot → BuildError → BuildError
  | .parameter name => .inParameter name
  | .result => .inResult

def FailureMember.around : FailureMember → BuildError → BuildError
  | .method name => .inMethod name
  | .property name => .inProperty name

/-- What fails inside a declaration. -/
structure Failure where
  member : Option FailureMember := none
  slot : Option FailureSlot := none
  root : FailureRoot

namespace Failure

/-- The error of the part of a signature, or of the root. -/
def inner (failure : Failure) : BuildError :=
  match failure.slot with
  | some slot => slot.around failure.root.error
  | none => failure.root.error

def error (failure : Failure) : BuildError :=
  match failure.member with
  | some member => member.around failure.inner
  | none => failure.inner

/-- The errors from the outermost to the root. -/
def chain (failure : Failure) : List BuildError :=
  (failure.member.map (·.around failure.inner)).toList ++
    (failure.slot.map (·.around failure.root.error)).toList ++ [failure.root.error]

/-- The sources are the chain, and a backtrace behind the root if the target lacks
something. -/
theorem message_sources (failure : Failure) (shown : String) :
    .error failure.error.message :: failure.error.sources shown =
      failure.chain.map (fun error => .error error.message) ++
        failure.root.backtraces shown := by
  obtain ⟨member, slot, root⟩ := failure
  rcases member with - | (name | name) <;> rcases slot with - | (name | -) <;> cases root <;> rfl

theorem message_causes (failure : Failure) :
    failure.error.message :: failure.error.causes = failure.chain.map (·.message) := by
  obtain ⟨member, slot, root⟩ := failure
  rcases member with - | (name | name) <;> rcases slot with - | (name | -) <;> cases root <;> rfl

theorem isUnsupported_error (failure : Failure) :
    failure.error.isUnsupported ↔ failure.root.IsLack := by
  obtain ⟨member, slot, root⟩ := failure
  rcases member with - | (name | name) <;> rcases slot with - | (name | -) <;> cases root <;>
    simp [error, inner, FailureMember.around, FailureSlot.around, FailureRoot.error,
      FailureRoot.IsLack, BuildError.isUnsupported]

end Failure

theorem append_ne_empty {front : String} (back : String) (visible : front ≠ "") :
    front ++ back ≠ "" := by
  rw [Ne, String.append_eq_empty_iff]
  exact fun both => visible both.1

theorem BuildError.message_ne_empty (error : BuildError) : error.message ≠ "" := by
  have behind {front : String} (name : String) (visible : front ≠ "") :
      front ++ name ++ "\"" ≠ "" := append_ne_empty _ (append_ne_empty _ visible)
  cases error with
  | inDeclaration kind name =>
      exact behind name (append_ne_empty _ (append_ne_empty _ (by decide)))
  | inMethod name | inProperty name | inParameter name | unsupported name =>
      exact behind name (by decide)
  | unresolved id => exact behind id.text (by decide)
  | unrepresentable | dangling => exact append_ne_empty _ (append_ne_empty _ (by decide))
  | inResult =>
      change "Failed to map return type" ≠ ""
      decide
  | index =>
      change "bgn-index error" ≠ ""
      decide

/-- Backtraces stay out of reports. -/
theorem BuildError.reportWith_eq (shown : String) (error : BuildError) :
    error.reportWith shown = error.report := by
  have told : (error.sources shown).filterMap (·.message?) =
      (error.sources "").filterMap (·.message?) := by
    induction error with
    | inDeclaration _ _ cause ih | inMethod _ cause ih | inProperty _ cause ih
    | inParameter _ cause ih | inResult cause ih =>
        exact congrArg (cause.message :: ·) ih
    | unrepresentable | unsupported | unresolved | dangling | index => rfl
  rw [report, reportWith, reportWith, told]

/-- No cause says nothing, so the report names them all. -/
theorem Failure.report_inDeclaration (failure : Failure) (kind : DeclKind) (name : String) :
    (BuildError.inDeclaration kind name failure.error).report =
      String.intercalate ": "
        ((.inDeclaration kind name failure.error :: failure.chain).map BuildError.message) := by
  have causes : (BuildError.inDeclaration kind name failure.error).causes =
      failure.chain.map BuildError.message := failure.message_causes
  change String.intercalate ": " (_ :: (BuildError.causes _).filter _) = _
  rw [causes, List.map_cons, List.filter_eq_self.mpr]
  intro message member
  obtain ⟨error, -, rfl⟩ := List.mem_map.mp member
  simpa using error.message_ne_empty

/-- From runs with an invariant on, an attempt keeps the invariant, and fails with errors of
one sort alone. -/
structure Attempt.Fails {α : Type} (holds : Run → Prop) (allowed : BuildError → Prop)
    (attempt : Attempt α) : Prop where
  keeps : Keeps holds attempt.run
  error : ∀ run error, holds run → (attempt.run.run run).1 = .error error → allowed error

namespace Attempt.Fails

variable {α β : Type} {holds : Run → Prop} {allowed weaker : BuildError → Prop}
  {attempt : Attempt α}

theorem pure (value : α) : Attempt.Fails holds allowed (Pure.pure value : Attempt α) :=
  ⟨.pure _, fun _ _ _ => nofun⟩

theorem throw {error : BuildError} (here : allowed error) :
    Attempt.Fails holds allowed (throw error : Attempt α) where
  keeps := .pure _
  error run other _ thrown := by
    cases thrown
    exact here

/-- What stands behind a failure is not tried. -/
theorem throw_bind {error : BuildError} {next : β → Attempt α} (here : allowed error) :
    Attempt.Fails holds allowed (MonadExcept.throw error >>= next) where
  keeps := .pure _
  error run other _ thrown := by
    cases thrown
    exact here

theorem lift {compute : StateM Run α} (kept : Keeps holds compute) :
    Attempt.Fails holds allowed (liftM compute) := ⟨.lift kept, fun _ _ _ => nofun⟩

theorem mono (fails : attempt.Fails holds allowed)
    (implies : ∀ error, allowed error → weaker error) : attempt.Fails holds weaker :=
  ⟨fails.keeps, fun run error kept thrown => implies error (fails.error run error kept thrown)⟩

theorem bind {next : α → Attempt β} (first : attempt.Fails holds allowed)
    (second : ∀ value, (next value).Fails holds allowed) :
    (attempt >>= next).Fails holds allowed where
  keeps := .attempt first.keeps fun value => (second value).keeps
  error run error kept thrown := by
    rcases ends : attempt.run.run run with ⟨result, mid⟩
    have keptMid : holds mid := by
      have later := first.keeps run kept
      rwa [ends] at later
    cases result with
    | ok value =>
        rw [show ((attempt >>= next).run.run run) = _ from run_bind_ok ends] at thrown
        exact (second value).error mid error keptMid thrown
    | error cause =>
        rw [show ((attempt >>= next).run.run run) = _ from run_bind_error ends] at thrown
        cases thrown
        exact first.error run error kept (congrArg Prod.fst ends)

theorem read {next : Run → Attempt β} (second : ∀ run, (next run).Fails holds allowed) :
    Attempt.Fails holds allowed (getThe Run >>= next) where
  keeps := .read fun run => (second run).keeps
  error run error kept thrown := (second run).error run error kept thrown

theorem within {place : BuildError → BuildError}
    (fails : attempt.Fails holds fun cause => allowed (place cause)) :
    Attempt.Fails holds allowed (within place attempt) where
  keeps := .within place fails.keeps
  error run error kept thrown := by
    have inner : (attempt.run.run run).1.mapError place = .error error := thrown
    cases result : (attempt.run.run run).1 with
    | ok value => simp [result, Except.mapError] at inner
    | error cause =>
        rw [result] at inner
        cases inner
        exact fails.error run cause kept result

theorem untabled {attempt : Attempt (List StubElement)} (fails : attempt.Fails holds allowed) :
    attempt.untabled.Fails holds allowed := .bind fails fun _ => .pure _

theorem mapM {build : β → Attempt α} {items : List β}
    (each : ∀ item ∈ items, (build item).Fails holds allowed) :
    (items.mapM build).Fails holds allowed := by
  induction items with
  | nil => exact pure []
  | cons item rest ih =>
      rw [List.mapM_cons]
      refine bind (each item List.mem_cons_self) fun value => ?_
      exact bind (ih fun other member => each other (List.mem_cons_of_mem _ member)) fun _ => pure _

end Attempt.Fails

namespace BuildError

/-- Something that the target does not have. -/
def IsLack (error : BuildError) : Prop :=
  ∃ root : FailureRoot, root.IsLack ∧ error = root.error

/-- Something that the target does not have, in a signature or by itself. -/
def InSignature (error : BuildError) : Prop :=
  ∃ slot root, root.IsLack ∧ error = (Failure.mk none slot root).error

/-- Something that the target does not have, in a member or by itself. -/
def InMembers (error : BuildError) : Prop :=
  ∃ failure : Failure, failure.root.IsLack ∧ error = failure.error

variable {error : BuildError}

theorem IsLack.unrepresentable (spelling : String) : IsLack (.unrepresentable spelling) :=
  ⟨.unrepresentable spelling, nofun, rfl⟩

theorem IsLack.unsupported (description : String) : IsLack (.unsupported description) :=
  ⟨.unsupported description, nofun, rfl⟩

theorem IsLack.inSignature (lack : error.IsLack) : error.InSignature := by
  obtain ⟨root, isLack, rfl⟩ := lack
  exact ⟨none, root, isLack, rfl⟩

theorem IsLack.around (slot : FailureSlot) (lack : error.IsLack) :
    (slot.around error).InSignature := by
  obtain ⟨root, isLack, rfl⟩ := lack
  exact ⟨some slot, root, isLack, rfl⟩

theorem InSignature.inMembers (inSignature : error.InSignature) : error.InMembers := by
  obtain ⟨slot, root, isLack, rfl⟩ := inSignature
  exact ⟨⟨none, slot, root⟩, isLack, rfl⟩

theorem InSignature.around (member : FailureMember) (inSignature : error.InSignature) :
    (member.around error).InMembers := by
  obtain ⟨slot, root, isLack, rfl⟩ := inSignature
  exact ⟨⟨some member, slot, root⟩, isLack, rfl⟩

theorem IsLack.inMembers (lack : error.IsLack) : error.InMembers := lack.inSignature.inMembers

end BuildError

namespace Index

/-- A declaration names another one that the index does not have. -/
def Misses (index : Index) : Declaration → DeclId → Prop
  | .objcProtocol decl, id => id ∈ decl.protocols ∧ index.objcProtocols.get? id = none
  | .objcClass decl, id =>
      (decl.superclass = some id ∧ index.objcClasses.get? id = none) ∨
        (id ∈ decl.protocols ∧ index.objcProtocols.get? id = none)
  | .objcCategory decl, id => decl.extended = id ∧ index.objcClasses.get? id = none
  | _, _ => False

/-- What a declaration fails with: something that the target does not have, or the name of
a declaration that is missing. -/
def Rejects (index : Index) (decl : Declaration) (error : BuildError) : Prop :=
  (∃ id, index.Misses decl id ∧ error = .unresolved id) ∨ error.InMembers

variable {index : Index} {run : Run}

/-- Declarations of types are known by a name if they have one. -/
def NamesTypes (index : Index) (run : Run) : Prop :=
  ∀ decl ∈ index.declarations, ∀ id answer, decl.typeId? = some id →
    run.classifiers.get? id = some answer → answer.isSome = decl.hasTypeName

theorem namesTypes_start (index : Index) (config : Config) :
    index.NamesTypes (.start config) := by
  intro decl _ id answer _ found
  cases found

theorem keeping_namesTypes (apart : index.KindsApart) : index.Keeping index.NamesTypes where
  classifier other member run kept decl declared id answer typeId found := by
    rcases get?_classifier found with before | ⟨again, decided⟩
    · exact kept decl declared id answer typeId before
    · rwa [apart.unique member declared again typeId] at decided
  freshStub _ kept := kept
  recordStrictness _ _ _ kept := kept

theorem Moment.namesTypes {config : Config} {asked : List DeclId}
    (moment : index.Moment config asked run) (apart : index.KindsApart) : index.NamesTypes run := by
  induction moment with
  | start => exact index.namesTypes_start config
  | asked _ declared ih => exact (keeping_namesTypes apart).classifier _ declared _ ih
  | numbered _ ih | recorded _ ih => exact ih

/-- A declaration of a type with a name is found under it. -/
theorem NamesTypes.isSome_classifier (names : index.NamesTypes run) {decl : Declaration}
    {id : DeclId} (declared : decl ∈ index.declarations) (typeId : decl.typeId? = some id)
    (hasName : decl.hasTypeName) : ((index.classifier decl).run run).1.isSome := by
  cases known : run.classifiers.get? id with
  | some answer =>
      rw [index.classifier_run_known typeId known]
      exact (names decl declared id answer typeId known).trans hasName
  | none =>
      rw [index.classifier_run_new typeId known]
      exact decideClassifier_run.1.trans hasName

section Builders

variable (apart : index.KindsApart) {allowed : BuildError → Prop}

include apart

theorem fails_resolved {decl : Declaration} {id : DeclId} (declared : decl ∈ index.declarations)
    (typeId : decl.typeId?.isSome) (hasName : decl.hasTypeName) :
    (index.resolved decl id).Fails index.NamesTypes allowed where
  keeps := (keeping_namesTypes apart).resolved declared id
  error run error names thrown := by
    obtain ⟨own, typeId⟩ := Option.isSome_iff_exists.mp typeId
    have named := names.isSome_classifier declared typeId hasName
    obtain ⟨classifier, answer⟩ := Option.isSome_iff_exists.mp named
    have ends := congrArg Prod.fst (index.resolved_run decl id run)
    rw [answer] at ends
    cases thrown.symm.trans ends

theorem fails_required (type : QualType) :
    (index.required type).Fails index.NamesTypes BuildError.IsLack := by
  unfold required
  refine .bind (.lift ((keeping_namesTypes apart).represent type)) fun answer => ?_
  cases answer with
  | none => exact .throw (.unrepresentable _)
  | some representation => exact .pure _

theorem fails_resultType (type : QualType) :
    (index.resultType type).Fails index.NamesTypes BuildError.IsLack := by
  unfold resultType
  split
  · exact .pure _
  · exact .bind (fails_required apart type) fun _ => .pure _

theorem fails_parameterStubs (takesStrings : Bool) (place : Nat) (names : List String)
    (parameters : List Parameter) :
    (index.parameterStubs (unmarked takesStrings) place names parameters).Fails index.NamesTypes
      BuildError.InSignature := by
  have type (place : Nat) (name : String) (wanted : QualType) : Attempt.Fails index.NamesTypes
      BuildError.InSignature
      (index.parameterType ((unmarked takesStrings).map (· place)) name wanted) := by
    rw [parameterType_unmarked]
    split
    · exact .pure _
    · have lacks : (index.targetType wanted).Fails index.NamesTypes BuildError.IsLack :=
        .bind (fails_required apart wanted) fun _ => .pure _
      exact .within (lacks.mono fun _ lack => lack.around (.parameter name))
  fun_induction Index.parameterStubs index (unmarked takesStrings) place names parameters with
  | case1 place name names parameter parameters ih =>
      exact .bind (type _ _ _) fun _ => .bind ih fun _ => .pure _
  | case2 | case3 => exact .pure _

theorem fails_signature (takesStrings isVariadic : Bool) (parameters : List Parameter)
    (result : QualType) :
    (index.signature (unmarked takesStrings) isVariadic parameters result).Fails index.NamesTypes
      BuildError.InSignature := by
  unfold signature
  refine .bind (fails_parameterStubs apart _ _ _ _) fun _ => .bind (.within ?_) fun _ => .pure _
  exact (fails_resultType apart result).mono fun _ lack => lack.around .result

/-- A struct has a name, and fields that fail are left out. -/
theorem fails_buildStruct {decl : StructDecl} (declared : .struct decl ∈ index.declarations) :
    (index.buildStruct decl).Fails index.NamesTypes fun _ => False := by
  have keeping := keeping_namesTypes apart
  unfold buildStruct
  refine .bind (fails_resolved apart declared rfl rfl) fun classifier => ?_
  refine .bind (.lift keeping.freshStub) fun id => ?_
  split
  · exact .pure _
  · exact .bind (.lift (keeping.buildFields _)) fun _ => .pure _

theorem fails_buildEnum {decl : EnumDecl} (declared : .enumeration decl ∈ index.declarations) :
    (index.buildEnum decl).built.Fails index.NamesTypes BuildError.IsLack := by
  have keeping := keeping_namesTypes apart
  rw [built_buildEnum]
  refine .bind (fails_required apart _) fun base => .read fun run => ?_
  dsimp only
  split
  · exact .throw (.unrepresentable _)
  rename_i entries _
  refine .bind (.lift (keeping.classifier _ declared)) fun answer => ?_
  cases answer with
  | none => exact .bind (.lift (keeping.constantProperties _ _)) fun _ => .pure _
  | some classifier =>
      have decided : Attempt.Fails index.NamesTypes BuildError.IsLack (
          if run.config.isStrict decl then (index.buildStrict decl classifier base entries).built
          else Attempt.untabled (buildOpen classifier base entries)) := by
        split
        · rw [built_buildStrict]
          exact .bind (.lift keeping.freshStub) fun _ =>
            .bind (fails_required apart _) fun _ => .pure _
        · exact .untabled (.lift (.bind keeping.freshStub fun _ => .bind keeping.freshStub fun _ =>
            .bind (keeping.constantProperties _ _) fun _ => .pure _))
      dsimp only
      split
      · exact .bind (.lift (keeping.recordStrictness _ _)) fun _ => decided
      · exact decided

theorem fails_buildTypedef {decl : TypedefDecl} (declared : .typedef decl ∈ index.declarations) :
    (index.buildTypedef decl).Fails index.NamesTypes BuildError.IsLack := by
  have keeping := keeping_namesTypes apart
  unfold buildTypedef
  split
  · exact .pure _
  · refine .bind (fails_required apart _) fun aliased => ?_
    refine .bind (fails_resolved apart declared rfl rfl) fun classifier => ?_
    refine .bind (.lift keeping.freshStub) fun value => ?_
    dsimp only
    split
    · exact .bind (.lift keeping.freshStub) fun _ => .pure _
    · exact .pure _

theorem fails_buildFunction (decl : FunctionDecl) :
    (index.buildFunction decl).built.Fails index.NamesTypes BuildError.InSignature := by
  rw [built_buildFunction]
  exact .bind (.lift (keeping_namesTypes apart).freshStub) fun _ =>
    .bind (fails_signature apart _ _ _ _) fun _ => .pure _

theorem fails_buildGlobal (decl : GlobalDecl) :
    (index.buildGlobal decl).built.Fails index.NamesTypes BuildError.IsLack := by
  rw [built_buildGlobal]
  exact .bind (fails_required apart _) fun _ =>
    .bind (.lift (keeping_namesTypes apart).freshStub) fun _ => .pure _

theorem fails_buildWrappedMacro (decl : WrappedMacro) :
    (index.buildWrappedMacro decl).built.Fails index.NamesTypes BuildError.IsLack := by
  rw [built_buildWrappedMacro]
  exact .bind (fails_required apart _) fun _ =>
    .bind (.lift (keeping_namesTypes apart).freshStub) fun _ => .pure _

/-- A macro that the target cannot hold gives nothing, so none fails. -/
theorem fails_buildMacroConstant (decl : MacroConstant) :
    (index.buildMacroConstant decl).Fails index.NamesTypes fun _ => False := by
  have never : (index.buildMacroConstant decl).Fails (fun _ => True) fun _ => False := by
    unfold buildMacroConstant
    refine .bind (.lift fun _ _ => trivial) fun found => ?_
    cases found with
    | none => exact .pure _
    | some found => exact .bind (.lift fun _ _ => trivial) fun _ => .pure _
  exact ⟨(keeping_namesTypes apart).buildMacroConstant decl,
    fun run error _ thrown => never.error run error trivial thrown⟩

theorem fails_buildMethods (decl : ClassDecl) (number : Nat) (methods : List MethodDecl) :
    (index.buildMethods decl number methods).Fails index.NamesTypes BuildError.InMembers := by
  have one (number : Nat) (method : MethodDecl) :
      (index.buildMethod decl number method).Fails index.NamesTypes BuildError.InSignature := by
    unfold buildMethod
    split
    · exact .throw_bind (BuildError.IsLack.unsupported _).inSignature
    · exact .bind (.lift (keeping_namesTypes apart).freshStub) fun _ =>
        .bind (fails_signature apart false _ _ _) fun _ => .pure _
  induction methods generalizing number with
  | nil => exact .pure _
  | cons method rest ih =>
      refine .bind (.within ?_) fun _ => .bind (ih _) fun _ => .pure _
      exact (one number method).mono fun _ inside => inside.around (.method method.name)

theorem fails_buildClass {decl : ClassDecl} (declared : .nativeClass decl ∈ index.declarations) :
    (index.buildClass decl).Fails index.NamesTypes BuildError.InMembers := by
  unfold buildClass
  exact .bind (fails_resolved apart declared rfl rfl) fun _ =>
    .bind (.lift (keeping_namesTypes apart).freshStub) fun _ =>
      .bind (fails_buildMethods apart _ _ _) fun _ => .pure _

theorem fails_buildObjCMethod (container : DeclId) (receiver : Option TargetType)
    (method : ObjCMethod) :
    (index.buildObjCMethod container receiver method).Fails index.NamesTypes
      BuildError.InMembers := by
  unfold buildObjCMethod
  have around (error : BuildError) (inside : error.InSignature) :
      (BuildError.inMethod method.selector error).InMembers := inside.around (.method _)
  refine .within (.mono ?_ around)
  split
  · exact .throw_bind (BuildError.IsLack.unsupported _).inSignature
  · exact .bind (.lift (keeping_namesTypes apart).freshStub) fun _ =>
      .bind (fails_signature apart false _ _ _) fun _ => .pure _

theorem fails_buildObjCProperty (receiver : Option TargetType) (property : ObjCProperty) :
    (index.buildObjCProperty receiver property).Fails index.NamesTypes BuildError.InMembers := by
  refine .within (Attempt.Fails.mono ?_ fun _ lack =>
    (BuildError.IsLack.inSignature lack).around (.property property.name))
  exact .bind (fails_required apart _) fun _ =>
    .bind (.lift (keeping_namesTypes apart).freshStub) fun _ => .pure _

theorem fails_buildMembers (container : DeclId) (receiver : Option TargetType)
    (methods : List ObjCMethod) (properties : List ObjCProperty) :
    (index.buildMembers container receiver methods properties).Fails index.NamesTypes
      BuildError.InMembers := by
  unfold buildMembers
  exact .bind (.mapM fun method _ => fails_buildObjCMethod apart container receiver method)
    fun _ => .bind (.mapM fun property _ => fails_buildObjCProperty apart receiver property)
      fun _ => .pure _

/-- Naming a protocol fails if the index does not have it. -/
theorem fails_protocolType {id : DeclId}
    (missing : index.objcProtocols.get? id = none → allowed (.unresolved id)) :
    (index.protocolType id).Fails index.NamesTypes allowed := by
  unfold protocolType
  split
  · rename_i decl found
    exact .bind (fails_resolved apart (mem_declarations_objcProtocol found) rfl rfl) fun _ =>
      .pure _
  · rename_i found
    exact .throw (missing found)

theorem fails_classType {id : DeclId}
    (missing : index.objcClasses.get? id = none → allowed (.unresolved id)) :
    (index.classType id).Fails index.NamesTypes allowed := by
  unfold classType
  split
  · rename_i decl found
    exact .bind (fails_resolved apart (mem_declarations_objcClass found) rfl rfl) fun _ => .pure _
  · rename_i found
    exact .throw (missing found)

theorem fails_buildProtocol {decl : ObjCProtocolDecl}
    (declared : .objcProtocol decl ∈ index.declarations) :
    (index.buildProtocol decl).Fails index.NamesTypes (index.Rejects (.objcProtocol decl)) := by
  unfold buildProtocol
  refine .bind (fails_resolved apart declared rfl rfl) fun classifier => ?_
  refine .bind (.lift (keeping_namesTypes apart).freshStub) fun id => ?_
  refine .bind (.mapM fun other listed => fails_protocolType apart fun missing => ?_) fun _ => ?_
  · exact .inl ⟨other, ⟨listed, missing⟩, rfl⟩
  · exact .bind ((fails_buildMembers apart _ _ _ _).mono fun _ => .inr) fun _ => .pure _

theorem fails_buildObjCClass {decl : ObjCClassDecl}
    (declared : .objcClass decl ∈ index.declarations) :
    (index.buildObjCClass decl).Fails index.NamesTypes (index.Rejects (.objcClass decl)) := by
  have protocols : (decl.protocols.mapM index.protocolType).Fails index.NamesTypes
      (index.Rejects (.objcClass decl)) :=
    .mapM fun other listed => fails_protocolType apart fun missing =>
      .inl ⟨other, .inr ⟨listed, missing⟩, rfl⟩
  have members : (index.buildMembers decl.id none decl.methods decl.properties).Fails
      index.NamesTypes (index.Rejects (.objcClass decl)) :=
    (fails_buildMembers apart _ _ _ _).mono fun _ => .inr
  unfold buildObjCClass
  refine .bind (fails_resolved apart declared rfl rfl) fun classifier => ?_
  refine .bind (.lift (keeping_namesTypes apart).freshStub) fun id => ?_
  dsimp only
  split
  · rename_i superclass inherits
    refine .bind (fails_classType apart fun missing => ?_) fun type =>
      .bind protocols fun _ => .bind members fun _ => .pure _
    exact .inl ⟨superclass, .inl ⟨inherits, missing⟩, rfl⟩
  · exact .bind (.pure _) fun type => .bind protocols fun _ => .bind members fun _ => .pure _

theorem fails_buildCategory (decl : ObjCCategoryDecl) :
    (index.buildCategory decl).Fails index.NamesTypes (index.Rejects (.objcCategory decl)) := by
  unfold buildCategory
  split
  · rename_i missing
    exact .throw (.inl ⟨decl.extended, ⟨rfl, missing⟩, rfl⟩)
  · rename_i extended found
    refine .bind (fails_classType apart fun missing => ?_) fun receiver => ?_
    · cases found.symm.trans missing
    · exact .bind (.lift (keeping_namesTypes apart).freshStub) fun _ =>
        .bind ((fails_buildMembers apart _ _ _ _).mono fun _ => .inr) fun _ => .pure _

/-- A declaration that fails is neither a struct nor a macro constant. -/
theorem fails_buildDeclaration {decl : Declaration} (declared : decl ∈ index.declarations) :
    (index.buildDeclaration decl).Fails index.NamesTypes fun error =>
      (∀ other, decl ≠ .struct other) ∧ (∀ other, decl ≠ .macroConstant other) ∧
        ∃ cause, index.Rejects decl cause ∧
          error = .inDeclaration decl.kind decl.displayName cause := by
  rw [buildDeclaration_eq]
  refine .within ?_
  cases decl with
  | struct decl => exact (fails_buildStruct apart declared).untabled.mono nofun
  | macroConstant decl => exact (fails_buildMacroConstant apart decl).untabled.mono nofun
  | objcProtocol decl =>
      exact (fails_buildProtocol apart declared).untabled.mono fun cause rejects =>
        ⟨nofun, nofun, cause, rejects, rfl⟩
  | objcClass decl =>
      exact (fails_buildObjCClass apart declared).untabled.mono fun cause rejects =>
        ⟨nofun, nofun, cause, rejects, rfl⟩
  | objcCategory decl =>
      exact (fails_buildCategory apart decl).untabled.mono fun cause rejects =>
        ⟨nofun, nofun, cause, rejects, rfl⟩
  | nativeClass decl =>
      exact (fails_buildClass apart declared).untabled.mono fun cause inMembers =>
        ⟨nofun, nofun, cause, .inr inMembers, rfl⟩
  | function decl =>
      exact (fails_buildFunction apart decl).mono fun cause inSignature =>
        ⟨nofun, nofun, cause, .inr inSignature.inMembers, rfl⟩
  | enumeration decl =>
      exact (fails_buildEnum apart declared).mono fun cause lack =>
        ⟨nofun, nofun, cause, .inr lack.inMembers, rfl⟩
  | typedef decl =>
      exact (fails_buildTypedef apart declared).untabled.mono fun cause lack =>
        ⟨nofun, nofun, cause, .inr lack.inMembers, rfl⟩
  | «global» decl =>
      exact (fails_buildGlobal apart decl).mono fun cause lack =>
        ⟨nofun, nofun, cause, .inr lack.inMembers, rfl⟩
  | wrappedMacro decl =>
      exact (fails_buildWrappedMacro apart decl).mono fun cause lack =>
        ⟨nofun, nofun, cause, .inr lack.inMembers, rfl⟩

end Builders

/-- Every outcome is that of an attempt that an invariant held before. -/
theorem Keeping.attempted {holds : Run → Prop} (keeping : index.Keeping holds)
    {decls : List Declaration} (declared : ∀ decl ∈ decls, decl ∈ index.declarations)
    {outcomes : List Outcome} {after : Run} (before : holds run)
    (ends : (index.outcomes decls).run run = (outcomes, after)) {decl : Declaration}
    {result : Except BuildError Built} (member : (decl, result) ∈ outcomes) :
    ∃ start, holds start ∧ ((index.buildDeclaration decl).run.run start).1 = result := by
  induction decls generalizing run outcomes with
  | nil =>
      cases ends
      cases member
  | cons other rest ih =>
      rcases attempt : (index.buildDeclaration other).run.run run with ⟨first, mid⟩
      rcases behind : (index.outcomes rest).run mid with ⟨others, last⟩
      rw [outcomes_cons_run attempt behind] at ends
      cases ends
      rcases List.mem_cons.mp member with same | later
      · cases same
        exact ⟨run, before, congrArg Prod.fst attempt⟩
      · have kept := keeping.buildDeclaration (declared other List.mem_cons_self) run before
        rw [show (index.buildDeclaration other).run.run run = _ from attempt] at kept
        have rest := fun decl member => declared decl (List.mem_cons_of_mem other member)
        exact ih rest kept behind later

/-- An error of a declaration leads to one failure, and says so. -/
structure Explained (index : Index) (decl : Declaration) (error : BuildError)
    (failure : Failure) : Prop where
  nested : error = .inDeclaration decl.kind decl.displayName failure.error
  isUnsupported : error.isUnsupported ↔ failure.root.IsLack
  /-- Only what a declaration names itself can be missing. -/
  misses : ∀ id, failure.root = .unresolved id →
    index.Misses decl id ∧ failure.member = none ∧ failure.slot = none
  notStruct : ∀ other, decl ≠ .struct other
  notMacro : ∀ other, decl ≠ .macroConstant other
  sources : ∀ shown, error.sources shown =
    failure.chain.map (fun error => .error error.message) ++ failure.root.backtraces shown
  report : error.report =
    String.intercalate ": " ((error :: failure.chain).map BuildError.message)
  /-- Whatever a backtrace shows, the report is the same. -/
  untraced : ∀ shown, error.reportWith shown = error.report

/-- What declarations of an index fail with over the course of all runs. -/
structure FailuresExplained (index : Index) (config : Config) : Prop where
  attempt : ∀ asked run, index.Moment config asked run → ∀ decl ∈ index.declarations, ∀ error,
    (((index.draftDeclaration decl).run.run ∅).run run).1.1 = .error error →
      ∃ failure, index.Explained decl error failure
  /-- A build skips what fails, and says why. -/
  build : ∀ queries, ∃ outcomes last,
    index.build.run (index.after config queries) = (.ok (Library.ofOutcomes outcomes), last) ∧
      outcomes.map (·.1) = index.wanted config ∧
      (Library.ofOutcomes outcomes).skipped = outcomes.filterMap Outcome.skipped? ∧
      ∀ decl error, (decl, .error error) ∈ outcomes → ∃ failure, index.Explained decl error failure

theorem NamesTypes.explained (names : index.NamesTypes run) (apart : index.KindsApart)
    {decl : Declaration} (declared : decl ∈ index.declarations) {error : BuildError}
    (fails : ((index.buildDeclaration decl).run.run run).1 = .error error) :
    ∃ failure, index.Explained decl error failure := by
  obtain ⟨notStruct, notMacro, cause, rejects, rfl⟩ :=
    (fails_buildDeclaration apart declared).error run error names fails
  rcases rejects with ⟨id, misses, rfl⟩ | ⟨failure, lack, rfl⟩
  · let failure : Failure := { root := .unresolved id }
    refine ⟨failure, rfl, failure.isUnsupported_error, ?_, notStruct, notMacro,
      failure.message_sources, failure.report_inDeclaration decl.kind decl.displayName,
      fun shown => BuildError.reportWith_eq shown _⟩
    rintro other same
    cases same
    exact ⟨misses, rfl, rfl⟩
  · exact ⟨failure, rfl, failure.isUnsupported_error, fun id missing => absurd missing (lack id),
      notStruct, notMacro, failure.message_sources,
      failure.report_inDeclaration decl.kind decl.displayName,
      fun shown => BuildError.reportWith_eq shown _⟩

/-- Every error of a declaration leads to its root, which is something that the target does
not have, or the name of a class or protocol that is missing. -/
theorem failuresExplained (apart : index.KindsApart) (config : Config) :
    index.FailuresExplained config where
  attempt asked run moment decl declared error fails :=
    (moment.namesTypes apart).explained apart declared (index.buildDeclaration_of_error fails)
  build queries := by
    have moment : index.Moment config _ (index.after config queries) := moment_after apart queries
    have names := moment.namesTypes apart
    obtain ⟨outcomes, last, builds⟩ := index.exists_builds (index.after config queries)
    have listed := builds.listed
    rw [(moment.knows apart).configured] at listed
    refine ⟨outcomes, last, builds.build_run, listed, Library.skipped_ofOutcomes outcomes, ?_⟩
    intro decl error member
    have declared : ∀ decl ∈ index.wanted (index.after config queries).config,
        decl ∈ index.declarations := fun decl member => (List.mem_filter.mp member).1
    obtain ⟨start, kept, fails⟩ :=
      (keeping_namesTypes apart).attempted declared names builds member
    have wanted : decl ∈ outcomes.map (·.1) := List.mem_map_of_mem member
    exact kept.explained apart (declared decl (builds.listed ▸ wanted)) fails

/-- A class that derives from one that is missing. -/
def view : ObjCClassDecl := { id := ⟨"View"⟩, name := "View", superclass := some ⟨"Responder"⟩ }

/-- A function with a parameter that the target does not have. -/
def fade : FunctionDecl where
  id := ⟨"fade"⟩
  name := "fade"
  result := ⟨"void", false, .void⟩
  parameters := [⟨"alpha", ⟨"_Complex float", false, .other "complex"⟩⟩]

def screen : Index where
  objcClasses := .ofList [view]
  functions := .ofList [fade]

/-- Both fail, one for each reason. -/
theorem failuresExplained_screen :
    screen.KindsApart ∧ screen.FailuresExplained {} ∧
      (∃ error failure,
        (((screen.draftDeclaration (.objcClass view)).run.run ∅).run (.start {})).1.1 =
            .error error ∧
          screen.Explained (.objcClass view) error failure ∧ ¬failure.root.IsLack ∧
          error.report =
            "Failed to build objc class \"View\": Could not resolve declaration \"Responder\"") ∧
      ∃ error failure,
        (((screen.draftDeclaration (.function fade)).run.run ∅).run (.start {})).1.1 =
            .error error ∧
          screen.Explained (.function fade) error failure ∧ failure.root.IsLack := by
  have apart : screen.KindsApart := by decide
  have explained := failuresExplained apart {}
  have viewDeclared : .objcClass view ∈ screen.declarations :=
    mem_declarations_iff.mpr (List.mem_singleton_self view)
  have fadeDeclared : .function fade ∈ screen.declarations :=
    mem_declarations_iff.mpr (List.mem_singleton_self fade)
  refine ⟨apart, explained, ?_, ?_⟩
  · have fails : (((screen.draftDeclaration (.objcClass view)).run.run ∅).run (.start {})).1.1 =
        .error (.inDeclaration .objcClass "View" (.unresolved ⟨"Responder"⟩)) := by rfl
    obtain ⟨failure, shown⟩ := explained.attempt _ _ .start _ viewDeclared _ fails
    refine ⟨_, failure, fails, shown, ?_, by decide +kernel⟩
    rw [← shown.isUnsupported]
    decide
  · have fails : (((screen.draftDeclaration (.function fade)).run.run ∅).run (.start {})).1.1 =
        .error (.inDeclaration .function "fade" (.inParameter "alpha"
          (.unrepresentable "_Complex float"))) := by rfl
    obtain ⟨failure, shown⟩ := explained.attempt _ _ .start _ fadeDeclared _ fails
    exact ⟨_, failure, fails, shown, shown.isUnsupported.mp rfl⟩

end Index

end NativeBindings
