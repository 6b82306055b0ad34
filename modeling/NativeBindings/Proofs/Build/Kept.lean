import NativeBindings.Proofs.Build.Library
import NativeBindings.Proofs.Mapping.Kept

namespace NativeBindings

/-! # What a build keeps of a run

Builders ask the mapper, name declarations of the index, number stubs and record how
enumerations came out, and do nothing else to a run.  What survives these four survives a
build, whichever of its declarations fail.
-/

namespace Keeps

variable {α β : Type} {holds : Run → Prop}

theorem attempt {attempt : Attempt α} {next : α → Attempt β} (first : Keeps holds attempt.run)
    (second : ∀ value, Keeps holds (next value).run) : Keeps holds (attempt >>= next).run := by
  rw [ExceptT.run_bind]
  refine first.bind fun result => ?_
  cases result with
  | ok value => exact second value
  | error error => exact pure _

theorem lift {compute : StateM Run α} (kept : Keeps holds compute) :
    Keeps holds (liftM compute : Attempt α).run := kept.bind fun _ => pure _

theorem read {next : Run → Attempt β} (second : ∀ run, Keeps holds (next run).run) :
    Keeps holds (getThe Run >>= next).run := fun run kept => second run run kept

theorem within (place : BuildError → BuildError) {attempt : Attempt α}
    (kept : Keeps holds attempt.run) : Keeps holds (Attempt.within place attempt).run :=
  kept.bind fun _ => pure _

theorem untabled {attempt : Attempt (List StubElement)} (kept : Keeps holds attempt.run) :
    Keeps holds attempt.untabled.run := .attempt kept fun _ => .pure _

theorem mapM {build : β → Attempt α} (each : ∀ item, Keeps holds (build item).run)
    (items : List β) : Keeps holds (items.mapM build).run := by
  induction items with
  | nil => exact pure _
  | cons item rest ih =>
      rw [List.mapM_cons]
      exact attempt (each item) fun _ => attempt ih fun _ => pure _

end Keeps

namespace Index

/-- An invariant that survives everything a builder does. -/
structure Keeping (index : Index) (holds : Run → Prop) : Prop where
  classifier : ∀ decl ∈ index.declarations, Keeps holds (index.classifier decl)
  freshStub : Keeps holds Run.freshStub
  recordStrictness : ∀ name strict, Keeps holds (Run.recordStrictness name strict)

namespace Keeping

variable {index : Index} {holds : Run → Prop} (keeping : index.Keeping holds)

include keeping

theorem represent (type : QualType) : Keeps holds (index.represent type).run :=
  keeps_represent (fun decl declared _ => keeping.classifier decl declared) type

theorem required (type : QualType) : Keeps holds (index.required type).run := by
  unfold Index.required
  refine .attempt (.lift (keeping.represent type)) fun result => ?_
  cases result <;> exact .pure _

theorem resultType (type : QualType) : Keeps holds (index.resultType type).run := by
  unfold Index.resultType
  split
  · exact .pure _
  · exact .attempt (keeping.required type) fun _ => .pure _

theorem resolved {decl : Declaration} (declared : decl ∈ index.declarations) (id : DeclId) :
    Keeps holds (index.resolved decl id).run := by
  unfold Index.resolved
  refine .attempt (.lift (keeping.classifier decl declared)) fun answer => ?_
  cases answer <;> exact .pure _

theorem parameterStubs (takesStrings : Bool) (place : Nat) (names : List String)
    (parameters : List Parameter) :
    Keeps holds (index.parameterStubs (unmarked takesStrings) place names parameters).run := by
  have type (place : Nat) (name : String) (wanted : QualType) : Keeps holds (ExceptT.run
      (index.parameterType ((unmarked takesStrings).map (· place)) name wanted)) := by
    rw [parameterType_unmarked]
    split
    · exact .pure _
    · exact .within _ (.attempt (keeping.required _) fun _ => .pure _)
  fun_induction Index.parameterStubs index (unmarked takesStrings) place names parameters with
  | case1 place name names parameter parameters ih =>
      exact .attempt (type _ _ _) fun _ => .attempt ih fun _ => .pure _
  | case2 | case3 => exact .pure _

theorem signature (takesStrings isVariadic : Bool) (parameters : List Parameter)
    (result : QualType) :
    Keeps holds (index.signature (unmarked takesStrings) isVariadic parameters result).run := by
  unfold Index.signature
  exact .attempt (keeping.parameterStubs _ _ _ _) fun _ =>
    .attempt (.within _ (keeping.resultType _)) fun _ => .pure _

theorem buildFields (fields : List Field) : Keeps holds (index.buildFields fields) := by
  have one (field : Field) : Keeps holds (index.buildField field).run := by
    unfold buildField
    refine .option (keeping.represent _) fun representation => ?_
    refine .ofOption fun accessor _ => ?_
    exact .option (.lift keeping.freshStub) fun _ => .pure _
  induction fields with
  | nil => exact .pure _
  | cons field rest ih =>
      unfold Index.buildFields
      dsimp only
      split
      · exact .bind (.pure _) fun _ => .bind ih fun _ => .pure _
      · exact .bind (one field) fun _ => .bind ih fun _ => .pure _

theorem buildStruct {decl : StructDecl} (declared : .struct decl ∈ index.declarations) :
    Keeps holds (index.buildStruct decl).run := by
  unfold Index.buildStruct
  refine .attempt (keeping.resolved declared _) fun classifier => ?_
  refine .attempt (.lift keeping.freshStub) fun id => ?_
  split
  · exact .pure _
  · exact .attempt (.lift (keeping.buildFields _)) fun _ => .pure _

theorem constantProperties (type : TargetType) (entries : List EnumEntry) :
    Keeps holds (constantProperties type entries) := by
  induction entries with
  | nil => exact .pure _
  | cons entry rest ih =>
      exact .bind keeping.freshStub fun _ => .bind ih fun _ => .pure _

theorem buildEnum {decl : EnumDecl} (declared : .enumeration decl ∈ index.declarations) :
    Keeps holds (index.buildEnum decl).built.run := by
  rw [built_buildEnum]
  refine .attempt (keeping.required _) fun base => .read fun run => ?_
  dsimp only
  split
  · exact .pure _
  rename_i entries _
  refine .attempt (.lift (keeping.classifier _ declared)) fun answer => ?_
  cases answer with
  | none => exact .attempt (.lift (keeping.constantProperties _ _)) fun _ => .pure _
  | some classifier =>
      have decided : Keeps holds (ExceptT.run (
          if run.config.isStrict decl then (index.buildStrict decl classifier base entries).built
          else Attempt.untabled (buildOpen classifier base entries))) := by
        split
        · rw [built_buildStrict]
          exact .attempt (.lift keeping.freshStub) fun _ =>
            .attempt (keeping.required _) fun _ => .pure _
        · exact .untabled (.lift (.bind keeping.freshStub fun _ => .bind keeping.freshStub fun _ =>
            .bind (keeping.constantProperties _ _) fun _ => .pure _))
      dsimp only
      split
      · exact .attempt (.lift (keeping.recordStrictness _ _)) fun _ => decided
      · exact decided

theorem buildTypedef {decl : TypedefDecl} (declared : .typedef decl ∈ index.declarations) :
    Keeps holds (index.buildTypedef decl).run := by
  unfold Index.buildTypedef
  split
  · exact .pure _
  · refine .attempt (keeping.required _) fun aliased => ?_
    refine .attempt (keeping.resolved declared _) fun classifier => ?_
    refine .attempt (.lift keeping.freshStub) fun value => ?_
    dsimp only
    split
    · exact .attempt (.lift keeping.freshStub) fun _ => .pure _
    · exact .pure _

theorem buildFunction (decl : FunctionDecl) : Keeps holds (index.buildFunction decl).built.run := by
  rw [built_buildFunction]
  exact .attempt (.lift keeping.freshStub) fun _ =>
    .attempt (keeping.signature _ _ _ _) fun _ => .pure _

theorem buildGlobal (decl : GlobalDecl) : Keeps holds (index.buildGlobal decl).built.run := by
  rw [built_buildGlobal]
  exact .attempt (keeping.required _) fun _ => .attempt (.lift keeping.freshStub) fun _ => .pure _

theorem buildMacroConstant (decl : MacroConstant) :
    Keeps holds (index.buildMacroConstant decl).run := by
  unfold Index.buildMacroConstant
  have literal : Keeps holds (index.macroLiteral decl).run := by
    unfold macroLiteral
    refine .get fun run => ?_
    split
    · exact .pure _
    · exact .option (keeping.represent _) fun _ => .ofOption fun _ _ => .pure _
    · exact .option (keeping.represent _) fun _ => .ofOption fun _ _ => .pure _
  refine .attempt (.lift literal) fun found => ?_
  cases found with
  | none => exact .pure _
  | some found => exact .attempt (.lift keeping.freshStub) fun _ => .pure _

theorem buildWrappedMacro (decl : WrappedMacro) :
    Keeps holds (index.buildWrappedMacro decl).built.run := by
  rw [built_buildWrappedMacro]
  exact .attempt (keeping.required _) fun _ => .attempt (.lift keeping.freshStub) fun _ => .pure _

theorem buildMethods (decl : ClassDecl) (number : Nat) (methods : List MethodDecl) :
    Keeps holds (index.buildMethods decl number methods).run := by
  have one (number : Nat) (method : MethodDecl) :
      Keeps holds (index.buildMethod decl number method).run := by
    unfold buildMethod
    split
    · exact .pure _
    · exact .attempt (.lift keeping.freshStub) fun _ =>
        .attempt (keeping.signature false _ _ _) fun _ => .pure _
  induction methods generalizing number with
  | nil => exact .pure _
  | cons method rest ih =>
      exact .attempt (.within _ (one number method)) fun _ => .attempt (ih _) fun _ => .pure _

theorem buildClass {decl : ClassDecl} (declared : .nativeClass decl ∈ index.declarations) :
    Keeps holds (index.buildClass decl).run := by
  unfold Index.buildClass
  exact .attempt (keeping.resolved declared _) fun _ =>
    .attempt (.lift keeping.freshStub) fun _ =>
      .attempt (keeping.buildMethods _ _ _) fun _ => .pure _

theorem buildMembers (container : DeclId) (receiver : Option TargetType)
    (methods : List ObjCMethod) (properties : List ObjCProperty) :
    Keeps holds (index.buildMembers container receiver methods properties).run := by
  unfold Index.buildMembers
  refine .attempt (.mapM (fun method => .within _ ?_) _) fun functions =>
    .attempt (.mapM (fun property => .within _ ?_) _) fun stubs => .pure _
  · split
    · exact .pure _
    · exact .attempt (.lift keeping.freshStub) fun _ =>
        .attempt (keeping.signature false _ _ _) fun _ => .pure _
  · exact .attempt (keeping.required _) fun _ =>
      .attempt (.lift keeping.freshStub) fun _ => .pure _

theorem protocolType (id : DeclId) : Keeps holds (index.protocolType id).run := by
  unfold Index.protocolType
  split
  · rename_i decl found
    exact .attempt (keeping.resolved (mem_declarations_objcProtocol found) _) fun _ => .pure _
  · exact .pure _

theorem classType (id : DeclId) : Keeps holds (index.classType id).run := by
  unfold Index.classType
  split
  · rename_i decl found
    exact .attempt (keeping.resolved (mem_declarations_objcClass found) _) fun _ => .pure _
  · exact .pure _

theorem buildProtocol {decl : ObjCProtocolDecl}
    (declared : .objcProtocol decl ∈ index.declarations) :
    Keeps holds (index.buildProtocol decl).run := by
  unfold Index.buildProtocol
  exact .attempt (keeping.resolved declared _) fun _ =>
    .attempt (.lift keeping.freshStub) fun _ =>
      .attempt (.mapM keeping.protocolType _) fun _ =>
        .attempt (keeping.buildMembers _ _ _ _) fun _ => .pure _

theorem buildObjCClass {decl : ObjCClassDecl} (declared : .objcClass decl ∈ index.declarations) :
    Keeps holds (index.buildObjCClass decl).run := by
  unfold Index.buildObjCClass
  refine .attempt (keeping.resolved declared _) fun classifier => ?_
  refine .attempt (.lift keeping.freshStub) fun id => ?_
  dsimp only
  split
  · exact .attempt (keeping.classType _) fun superclass =>
      .attempt (.mapM keeping.protocolType _) fun protocols =>
        .attempt (keeping.buildMembers _ _ _ _) fun _ => .pure _
  · exact .attempt (.pure _) fun superclass =>
      .attempt (.mapM keeping.protocolType _) fun protocols =>
        .attempt (keeping.buildMembers _ _ _ _) fun _ => .pure _

theorem buildCategory (decl : ObjCCategoryDecl) : Keeps holds (index.buildCategory decl).run := by
  unfold Index.buildCategory
  split
  · exact .pure _
  · exact .attempt (keeping.classType _) fun _ => .attempt (.lift keeping.freshStub) fun _ =>
      .attempt (keeping.buildMembers _ _ _ _) fun _ => .pure _

theorem buildDeclaration {decl : Declaration} (declared : decl ∈ index.declarations) :
    Keeps holds (index.buildDeclaration decl).run := by
  rw [buildDeclaration_eq]
  refine .within _ ?_
  cases decl with
  | struct decl => exact .untabled (keeping.buildStruct declared)
  | enumeration decl => exact keeping.buildEnum declared
  | typedef decl => exact .untabled (keeping.buildTypedef declared)
  | nativeClass decl => exact .untabled (keeping.buildClass declared)
  | objcProtocol decl => exact .untabled (keeping.buildProtocol declared)
  | objcClass decl => exact .untabled (keeping.buildObjCClass declared)
  | objcCategory decl => exact .untabled (keeping.buildCategory decl)
  | «global» decl => exact keeping.buildGlobal decl
  | function decl => exact keeping.buildFunction decl
  | macroConstant decl => exact .untabled (keeping.buildMacroConstant decl)
  | wrappedMacro decl => exact keeping.buildWrappedMacro decl

theorem outcomes {decls : List Declaration} (declared : ∀ decl ∈ decls, decl ∈ index.declarations) :
    Keeps holds (index.outcomes decls) := by
  induction decls with
  | nil => exact .pure _
  | cons decl rest ih =>
      have later := ih fun other member => declared other (List.mem_cons_of_mem _ member)
      exact .bind (keeping.buildDeclaration (declared decl List.mem_cons_self)) fun _ =>
        .bind later fun _ => .pure _

/-- An invariant that held before a build holds after it. -/
theorem builds {run after : Run} {outcomes : List Outcome}
    (builds : index.Builds run outcomes after) (before : holds run) : holds after := by
  have declared : ∀ decl ∈ index.wanted run.config, decl ∈ index.declarations :=
    fun decl member => (List.mem_filter.mp member).1
  have kept := keeping.outcomes declared run before
  rwa [builds] at kept

end Keeping

end Index

end NativeBindings
