import NativeBindings.Proofs.Build.Enumerations
import NativeBindings.Proofs.Build.View
import NativeBindings.Proofs.Mapping.Compared

namespace NativeBindings

/-! # Builders in two runs

Where two runs agree on names, builders give what looks the same, and they fail for the
same reasons.  Whether a declaration can be built does not depend on what anything is
called, nor does the number of stubs it takes.
-/

theorem View.Same.mapM {view : View} {α β : Type} [MulAction View β] {first second : α → Option β}
    (each : ∀ item, view.Same (first item) (second item)) (items : List α) :
    view.Same (items.mapM first) (items.mapM second) := by
  induction items with
  | nil => rfl
  | cons item rest ih =>
      rw [List.mapM_cons, List.mapM_cons]
      match first item, second item, each item with
      | none, none, _ => rfl
      | some value, some other, same =>
          match rest.mapM first, rest.mapM second, ih with
          | none, none, _ => rfl
          | some values, some others, all =>
              exact congrArg₂ (fun value values => some (value :: values)) (Option.some.inj same)
                (Option.some.inj all)

/-- Stubs beside which there is nothing to say agree as far as they alone do. -/
theorem Comparison.Agree.untabled {comparison : Comparison}
    {first second : Attempt (List StubElement)} (agree : comparison.Agree first.run second.run) :
    comparison.Agree first.untabled.run second.untabled.run :=
  .attempt agree fun _ _ same => .ok (congrArg₂ Built.mk same rfl)

namespace View.Allows

variable {view : View} {config other : Config} (allows : view.Allows config other)

include allows

theorem integralConstant (index : Index) (value : Int64) (type : QualType) :
    view.Same (index.integralConstant? config.platform value type)
      (index.integralConstant? other.platform value type) := by
  obtain ⟨platform, mode, rfl, fine⟩ := allows
  have integer (size : UInt32) (signed : Bool) :
      view.Same (Constant.integer value size (config.platform.signOf signed))
        (.integer value size (platform.signOf signed)) := by
    unfold Same
    rw [Constant.smul_integer, Constant.smul_integer, coarse_unnumbered]
    cases coarse : view.coarse with
    | true => simp
    | false => rw [fine coarse]
  unfold Index.integralConstant?
  split
  · split
    · exact congrArg some (integer _ _)
    · rfl
  · split
    · exact congrArg some (integer _ _)
    · rfl
  · rfl

theorem enumEntries (index : Index) (decl : EnumDecl) :
    view.Same (index.enumEntries config.platform decl)
      (index.enumEntries other.platform decl) := by
  refine View.Same.mapM (fun constant => ?_) decl.constants
  match index.integralConstant? config.platform constant.value decl.base,
      index.integralConstant? other.platform constant.value decl.base,
      allows.integralConstant index constant.value decl.base with
  | none, none, _ => rfl
  | some literal, some again, same =>
      exact congrArg (fun literal => some (EnumEntry.mk constant.name literal))
        (Option.some.inj same)

end View.Allows

namespace View.Same

variable {view : View} {first second : Representation} (same : view.Same first second)

include same

theorem placed : view.Same first.placed second.placed := by
  have seen := congrArg Representation.placed same
  rwa [Representation.placed_smul, Representation.placed_smul] at seen

theorem isAggregate : first.isAggregate = second.isAggregate :=
  same.invariant _ Representation.isAggregate_smul

theorem getter (name : String) (type : QualType) :
    view.Same (first.getter name type) (second.getter name type) := by
  unfold Representation.getter
  rw [same.isAggregate]
  unfold Same at same ⊢
  rw [Getter.smul_mk, same, Getter.smul_mk]

omit same in
/-- The strings among a function's parameters are marked under its number. -/
theorem marks {id other : StubId} (number : view.Same id other) (parameters : List Parameter) :
    view.Same
      ((stringMarks id parameters).foldl (fun table mark => table.markString mark.1 mark.2) ∅ :
        BridgeTable)
      ((stringMarks other parameters).foldl (fun table mark => table.markString mark.1 mark.2)
        ∅) := by
  have marked (view : View) (id : StubId) : stringMarks (view • id) parameters =
      (stringMarks id parameters).map fun mark => (mark.1.seen view, mark.2) := by
    unfold stringMarks
    rw [← List.reduceOption_map]
    simp only [List.mapIdx_eq_zipIdx_map, List.map_map, Function.comp_def, Option.map_map]
    rfl
  have folded (view : View) (marks : List (ParameterKey × StringKind)) (table : BridgeTable) :
      view • marks.foldl (fun table mark => table.markString mark.1 mark.2) table =
        (marks.map fun mark => (mark.1.seen view, mark.2)).foldl
          (fun table mark => table.markString mark.1 mark.2) (view • table) := by
    induction marks generalizing table with
    | nil => rfl
    | cons mark rest ih =>
        rw [List.foldl_cons, ih, BridgeTable.smul_markString, List.map_cons, List.foldl_cons]
  unfold Same at number ⊢
  rw [folded, folded, ← marked, ← marked, number]
  rfl

end View.Same

namespace Comparison.Simulates

variable {comparison : Comparison} {index : Index} (simulates : comparison.Simulates index)

include simulates

theorem required (type : QualType) :
    comparison.Agree (index.required type).run (index.required type).run := by
  unfold Index.required
  refine .attempt (.lift (simulates.represent type)) fun found again same => ?_
  match found, again, same with
  | some _, some _, same => exact .ok (Option.some.inj same)
  | none, none, _ => exact .throw _

theorem resultType (type : QualType) :
    comparison.Agree (index.resultType type).run (index.resultType type).run := by
  unfold Index.resultType
  split
  · exact .ok (View.Same.classifier _ _).ofClassifier
  · exact .attempt (simulates.required type) fun _ _ same => .ok same.target

theorem resolved {decl : Declaration} (declared : decl ∈ index.declarations) (id : DeclId) :
    comparison.Agree (index.resolved decl id).run (index.resolved decl id).run := by
  unfold Index.resolved
  refine .attempt (.lift (simulates.classifier decl declared)) fun found again same => ?_
  match found, again, same with
  | some _, some _, same => exact .ok (Option.some.inj same)
  | none, none, _ => exact .throw _

theorem parameterStubs (takesStrings : Bool) (place : Nat) (names : List String)
    (parameters : List Parameter) :
    comparison.Agree (index.parameterStubs (Index.unmarked takesStrings) place names parameters).run
      (index.parameterStubs (Index.unmarked takesStrings) place names parameters).run := by
  have type (place : Nat) (name : String) (wanted : QualType) : comparison.Agree
      (ExceptT.run (index.parameterType ((Index.unmarked takesStrings).map (· place)) name wanted))
      (ExceptT.run
        (index.parameterType ((Index.unmarked takesStrings).map (· place)) name wanted)) := by
    rw [Index.parameterType_unmarked]
    split
    · exact .ok ((View.Same.classifier _ _).ofClassifier.withNullable true)
    · exact .within _ (.attempt (simulates.required wanted) fun _ _ same => .ok same.target)
  fun_induction Index.parameterStubs index (Index.unmarked takesStrings) place names parameters with
  | case1 place name names parameter parameters ih =>
      refine .attempt (type _ _ _) fun target other same => ?_
      refine .attempt ih fun rest others all => .ok ?_
      exact congrArg₂ (fun type rest => ParameterStub.mk name type false :: rest) same all
  | case2 _ name =>
      have further := (View.Same.classifier comparison.view (.primitive "Any")).ofClassifier
      exact .ok (congrArg (fun type => [ParameterStub.mk name type true])
        (further.withNullable true))
  | case3 => exact .ok rfl

theorem signature (takesStrings isVariadic : Bool) (parameters : List Parameter)
    (result : QualType) :
    comparison.Agree
      (index.signature (Index.unmarked takesStrings) isVariadic parameters result).run
      (index.signature (Index.unmarked takesStrings) isVariadic parameters result).run := by
  unfold Index.signature
  refine .attempt (simulates.parameterStubs _ _ _ _) fun stubs others all => ?_
  refine .attempt (.within _ (simulates.resultType _)) fun target other same => .ok ?_
  exact congrArg₂ Prod.mk all same

theorem buildField (field : Field) :
    comparison.Agree (index.buildField field).run (index.buildField field).run := by
  unfold Index.buildField
  refine .option (simulates.represent _) fun representation other same => ?_
  have accessor : Index.fieldAccessor? field representation.info =
      Index.fieldAccessor? field other.info := by
    refine same.info.invariant _ fun view info => ?_
    cases info <;> rfl
  rw [accessor]
  refine .ofOption fun accessor _ => ?_
  refine .option (.liftOption simulates.freshStub) fun id again number => .some ?_
  have placed := same.placed
  unfold View.Same at number placed ⊢
  rw [same.isAggregate]
  split <;> simp [number, placed]

theorem buildFields (fields : List Field) :
    comparison.Agree (index.buildFields fields) (index.buildFields fields) := by
  induction fields with
  | nil => exact .pure rfl
  | cons field rest ih =>
      have joined {found other : Option PropertyStub} (same : comparison.view.Same found other) :
          comparison.Agree (do
            let properties ← index.buildFields rest
            pure (found.toList ++ properties)) (do
            let properties ← index.buildFields rest
            pure (other.toList ++ properties)) := by
        refine .bind ih fun properties others all => .pure ?_
        match found, other, same with
        | some _, some _, same => exact congrArg₂ List.cons (Option.some.inj same) all
        | none, none, _ => exact all
      unfold Index.buildFields
      dsimp only
      split
      · exact .bind (.pure (rfl : comparison.view.Same (none : Option PropertyStub) none))
          fun _ _ => joined
      · exact .bind (simulates.buildField field) fun _ _ => joined

theorem buildStruct {decl : StructDecl} (declared : .struct decl ∈ index.declarations) :
    comparison.Agree (index.buildStruct decl).run (index.buildStruct decl).run := by
  unfold Index.buildStruct
  refine .attempt (simulates.resolved declared _) fun classifier other name => ?_
  refine .attempt (.lift simulates.freshStub) fun id again number => ?_
  split
  · have supertype := View.Same.interop comparison.view "COpaque"
    refine .ok ?_
    unfold View.Same at name number supertype ⊢
    simp [name, number, supertype]
  · have supertype := View.Same.interop comparison.view "CStructVar"
    refine .attempt (.lift (simulates.buildFields _)) fun properties others all => .ok ?_
    unfold View.Same at name number supertype all ⊢
    simp [name, number, supertype, all]

theorem constantProperties {type other : TargetType} {entries others : List EnumEntry}
    (types : comparison.view.Same type other) (all : comparison.view.Same entries others) :
    comparison.Agree (constantProperties type entries) (constantProperties other others) := by
  induction entries generalizing others with
  | nil =>
      cases others with
      | nil => exact .pure rfl
      | cons entry rest => cases all
  | cons entry rest ih =>
      cases others with
      | nil => cases all
      | cons again others =>
          obtain ⟨first, behind⟩ := List.cons.inj all
          unfold NativeBindings.constantProperties
          refine .bind simulates.freshStub fun id last number => ?_
          refine .bind (ih behind) fun properties elements rest => .pure ?_
          obtain ⟨name, constant⟩ := entry
          obtain ⟨otherName, otherConstant⟩ := again
          obtain ⟨rfl, constants⟩ := EnumEntry.mk.inj first
          unfold View.Same at types number rest ⊢
          simp [types, number, rest, constants]

theorem closedBuilt {classifier other : Classifier} {base again : Representation}
    {entries others : List EnumEntry} (name : comparison.view.Same classifier other)
    (bases : comparison.view.Same base again) (all : comparison.view.Same entries others) :
    comparison.Agree (closedBuilt classifier base entries) (closedBuilt other again others) := by
  refine .bind simulates.freshStub fun id last number => .pure ?_
  have supertype := View.Same.interop comparison.view "CEnum"
  have target := bases.target
  have representation : comparison.view.Same (Representation.closed classifier) (.closed other) :=
    .representation name.ofClassifier (name.change (·.nested "Var")).ofClassifier name.enumeration
  unfold View.Same at name number supertype target all representation ⊢
  simp [name, number, supertype, target, all, representation, BridgeTable.smul_addEnumeration]

theorem buildOpen {classifier other : Classifier} {base again : Representation}
    {entries others : List EnumEntry} (name : comparison.view.Same classifier other)
    (bases : comparison.view.Same base again) (all : comparison.view.Same entries others) :
    comparison.Agree (Index.buildOpen classifier base entries)
      (Index.buildOpen other again others) := by
  refine .bind simulates.freshStub fun value otherValue first => ?_
  refine .bind simulates.freshStub fun memory otherMemory second => ?_
  refine .bind (simulates.constantProperties name.ofClassifier all) fun constants elements rest =>
    .pure ?_
  have variable' := name.change (·.variableOf)
  have target := bases.target
  have pointed := bases.pointed
  unfold View.Same at name variable' first second target pointed rest ⊢
  simp [name, variable', first, second, target, pointed, rest]

/-- An enumeration also records whether it is closed. -/
theorem buildEnum {decl : EnumDecl} (declared : .enumeration decl ∈ index.declarations)
    (records : ∀ name strict, comparison.Agree (Run.recordStrictness name strict)
      (Run.recordStrictness name strict)) :
    comparison.Agree (index.buildEnum decl).built.run (index.buildEnum decl).built.run := by
  rw [Index.buildEnum_eq declared]
  refine .attempt (simulates.required _) fun base again bases => ?_
  refine .readAttempt simulates.config fun run later allows => ?_
  have entries := allows.enumEntries index decl
  obtain ⟨platform, mode, same, -⟩ := allows
  have strict (config : Config) : { config with platform, mode }.isStrict decl =
      config.isStrict decl := rfl
  rw [same] at entries ⊢
  dsimp only at entries ⊢
  rw [strict]
  match index.enumEntries run.config.platform decl, index.enumEntries platform decl, entries with
  | none, none, _ => exact .throw _
  | some entries, some others, all =>
      replace all := Option.some.inj all
      refine .attempt (.lift (simulates.classifier _ declared)) fun answer other answers => ?_
      match answer, other, answers with
      | none, none, _ =>
          exact .untabled (.lift (simulates.constantProperties bases.target all))
      | some classifier, some other, name =>
          replace name := Option.some.inj name
          have finishes : comparison.Agree
              (if run.config.isStrict decl then
                liftM (NativeBindings.closedBuilt classifier base entries)
              else Attempt.untabled (Index.buildOpen classifier base entries)).run
              (if run.config.isStrict decl then
                liftM (NativeBindings.closedBuilt other again others)
              else Attempt.untabled (Index.buildOpen other again others)).run := by
            split
            · exact .lift (simulates.closedBuilt name bases all)
            · exact .untabled (.lift (simulates.buildOpen name bases all))
          dsimp only
          cases decl.name with
          | none => exact finishes
          | some text => exact .attempt (.lift (records _ _)) fun _ _ _ => finishes

theorem buildTypedef {decl : TypedefDecl} (declared : .typedef decl ∈ index.declarations) :
    comparison.Agree (index.buildTypedef decl).run (index.buildTypedef decl).run := by
  unfold Index.buildTypedef
  split
  · exact .ok rfl
  refine .attempt (simulates.required _) fun aliased again same => ?_
  refine .attempt (simulates.resolved declared _) fun classifier other name => ?_
  refine .attempt (.lift simulates.freshStub) fun value last first => ?_
  have isRecord : aliased.info.isRecord = again.info.isRecord :=
    same.info.invariant _ TypeInfo.isRecord_smul
  have aliasee : comparison.view.Same
      (if aliased.info.isRecord then aliased.pointed else aliased.target.nonNull)
      (if again.info.isRecord then again.pointed else again.target.nonNull) := by
    rw [isRecord]
    split
    · exact same.pointed
    · exact same.target.withNullable false
  dsimp only
  rw [same.keepsName index decl]
  split
  · refine .attempt (.lift simulates.freshStub) fun memory behind second => .ok ?_
    have variable' := name.change (·.variableOf)
    have pointed := same.pointed
    unfold View.Same at name variable' first second aliasee pointed ⊢
    simp [name, variable', first, second, aliasee, pointed]
  · refine .ok ?_
    unfold View.Same at name first aliasee ⊢
    simp [name, first, aliasee]

theorem buildFunction (decl : FunctionDecl) :
    comparison.Agree (index.buildFunction decl).built.run (index.buildFunction decl).built.run := by
  rw [Index.built_buildFunction]
  refine .attempt (.lift simulates.freshStub) fun id other number => ?_
  refine .attempt (simulates.signature _ _ _ _) fun signature again given => .ok ?_
  obtain ⟨parameters, result⟩ := Prod.mk.inj given
  have marks := number.marks decl.parameters
  unfold View.Same at number marks ⊢
  simp [number, parameters, result, marks]

theorem buildGlobal (decl : GlobalDecl) :
    comparison.Agree (index.buildGlobal decl).built.run (index.buildGlobal decl).built.run := by
  rw [Index.built_buildGlobal]
  refine .attempt (simulates.required _) fun representation again same => ?_
  refine .attempt (.lift simulates.freshStub) fun id other number => .ok ?_
  have placed := same.placed
  have getter := same.getter decl.name decl.type
  rw [same.isAggregate]
  unfold View.Same at number placed getter same ⊢
  split <;>
    simp [number, placed, getter, same, BridgeTable.smul_addGetter, BridgeTable.smul_addSetter]

theorem buildWrappedMacro (decl : WrappedMacro) :
    comparison.Agree (index.buildWrappedMacro decl).built.run
      (index.buildWrappedMacro decl).built.run := by
  rw [Index.built_buildWrappedMacro]
  refine .attempt (simulates.required _) fun representation again same => ?_
  refine .attempt (.lift simulates.freshStub) fun id other number => .ok ?_
  have placed := same.placed
  have getter := same.getter decl.name decl.type
  unfold View.Same at number placed getter ⊢
  simp [number, placed, getter, BridgeTable.smul_addGetter]

theorem macroLiteral (decl : MacroConstant) :
    comparison.Agree (index.macroLiteral decl).run (index.macroLiteral decl).run := by
  unfold Index.macroLiteral
  refine .readOption simulates.config fun run other allows => ?_
  dsimp only
  split
  · exact .some (congrArg₂ Prod.mk (View.Same.classifier _ _).ofClassifier rfl)
  · refine .option (simulates.represent _) fun representation again same => ?_
    refine .option (.pure (allows.integralConstant index _ _)) fun constant other constants => ?_
    exact .some (congrArg₂ Prod.mk same.target constants)
  · refine .option (simulates.represent _) fun representation again same => ?_
    refine .ofOption fun constant found => .some (congrArg₂ Prod.mk same.target ?_)
    unfold Index.floatingConstant? at found
    split at found
    · split at found <;> cases found
      rfl
    · cases found

theorem buildMacroConstant (decl : MacroConstant) :
    comparison.Agree (index.buildMacroConstant decl).run (index.buildMacroConstant decl).run := by
  unfold Index.buildMacroConstant
  refine .attempt (.lift (simulates.macroLiteral decl)) fun found again same => ?_
  match found, again, same with
  | none, none, _ => exact .ok rfl
  | some (type, constant), some (other, literal), same =>
      obtain ⟨types, constants⟩ := Prod.mk.inj (Option.some.inj same)
      refine .attempt (.lift simulates.freshStub) fun id last number => .ok ?_
      unfold View.Same at number ⊢
      simp [number, types, constants]

theorem buildMethods (decl : ClassDecl) (number : Nat) (methods : List MethodDecl) :
    comparison.Agree (index.buildMethods decl number methods).run
      (index.buildMethods decl number methods).run := by
  have one (number : Nat) (method : MethodDecl) :
      comparison.Agree (index.buildMethod decl number method).run
        (index.buildMethod decl number method).run := by
    unfold Index.buildMethod
    split
    · exact .throw_bind _
    refine .attempt (.lift simulates.freshStub) fun id other number => ?_
    refine .attempt (simulates.signature false _ _ _) fun signature again given => .ok ?_
    obtain ⟨parameters, result⟩ := Prod.mk.inj given
    unfold View.Same at number ⊢
    simp [number, parameters, result]
  induction methods generalizing number with
  | nil => exact .ok rfl
  | cons method rest ih =>
      unfold Index.buildMethods
      refine .attempt (.within _ (one _ _)) fun stub other same => ?_
      exact .attempt (ih _) fun stubs others all => .ok (congrArg₂ List.cons same all)

theorem buildClass {decl : ClassDecl} (declared : .nativeClass decl ∈ index.declarations) :
    comparison.Agree (index.buildClass decl).run (index.buildClass decl).run := by
  unfold Index.buildClass
  refine .attempt (simulates.resolved declared _) fun classifier other name => ?_
  refine .attempt (.lift simulates.freshStub) fun id again number => ?_
  refine .attempt (simulates.buildMethods _ _ _) fun functions others all => .ok ?_
  have supertype := View.Same.interop comparison.view "CStructVar"
  unfold View.Same at name number all supertype ⊢
  simp [name, number, all, supertype]

theorem buildMembers {receiver other : Option TargetType}
    (receivers : comparison.view.Same receiver other) (container : DeclId)
    (methods : List ObjCMethod) (properties : List ObjCProperty) :
    comparison.Agree (index.buildMembers container receiver methods properties).run
      (index.buildMembers container other methods properties).run := by
  have method (method : ObjCMethod) :
      comparison.Agree (index.buildObjCMethod container receiver method).run
        (index.buildObjCMethod container other method).run := by
    unfold Index.buildObjCMethod
    refine .within _ ?_
    split
    · exact .throw_bind _
    refine .attempt (.lift simulates.freshStub) fun id last number => ?_
    refine .attempt (simulates.signature false _ _ _) fun signature again given => .ok ?_
    obtain ⟨parameters, result⟩ := Prod.mk.inj given
    unfold View.Same at number receivers ⊢
    simp [number, parameters, result, receivers]
  have property (property : ObjCProperty) :
      comparison.Agree (index.buildObjCProperty receiver property).run
        (index.buildObjCProperty other property).run := by
    unfold Index.buildObjCProperty
    refine .within _ ?_
    refine .attempt (simulates.required _) fun representation again same => ?_
    refine .attempt (.lift simulates.freshStub) fun id last number => .ok ?_
    have target := same.target
    unfold View.Same at number target receivers ⊢
    cases property.setter <;> simp [number, target, receivers]
  unfold Index.buildMembers
  refine .attempt (.mapM method methods) fun functions again first => ?_
  refine .attempt (.mapM property properties) fun stubs others second => .ok ?_
  exact congrArg₂ Prod.mk first second

theorem protocolType (id : DeclId) :
    comparison.Agree (index.protocolType id).run (index.protocolType id).run := by
  unfold Index.protocolType
  split
  · rename_i decl found
    exact .attempt (simulates.resolved (Index.mem_declarations_objcProtocol found) id)
      fun _ _ same => .ok same.ofClassifier
  · exact .throw _

theorem classType (id : DeclId) :
    comparison.Agree (index.classType id).run (index.classType id).run := by
  unfold Index.classType
  split
  · rename_i decl found
    exact .attempt (simulates.resolved (Index.mem_declarations_objcClass found) id)
      fun _ _ same => .ok same.ofClassifier
  · exact .throw _

theorem buildProtocol {decl : ObjCProtocolDecl}
    (declared : .objcProtocol decl ∈ index.declarations) :
    comparison.Agree (index.buildProtocol decl).run (index.buildProtocol decl).run := by
  unfold Index.buildProtocol
  refine .attempt (simulates.resolved declared _) fun classifier other name => ?_
  refine .attempt (.lift simulates.freshStub) fun id again number => ?_
  refine .attempt (.mapM simulates.protocolType _) fun protocols others inherited => ?_
  refine .attempt (simulates.buildMembers (View.same_none _) _ _ _) fun members last all => .ok ?_
  obtain ⟨functions, properties⟩ := Prod.mk.inj all
  have supertype := View.Same.interop comparison.view "ObjCObject"
  unfold View.Same at name number inherited supertype ⊢
  simp [name, number, inherited, supertype, functions, properties]

theorem buildObjCClass {decl : ObjCClassDecl}
    (declared : .objcClass decl ∈ index.declarations) :
    comparison.Agree (index.buildObjCClass decl).run (index.buildObjCClass decl).run := by
  unfold Index.buildObjCClass
  refine .attempt (simulates.resolved declared _) fun classifier other name => ?_
  refine .attempt (.lift simulates.freshStub) fun id again number => ?_
  have continues {superclass root : TargetType}
      (supertype : comparison.view.Same superclass root) :
      comparison.Agree
        (do
          let protocols ← decl.protocols.mapM index.protocolType
          let members ← index.buildMembers decl.id none decl.methods decl.properties
          pure [.ofClass {
            id
            classifier
            kind := .objcClass
            supertypes := superclass :: protocols
            properties := members.2
            functions := members.1 }] : Attempt (List StubElement)).run
        (do
          let protocols ← decl.protocols.mapM index.protocolType
          let members ← index.buildMembers decl.id none decl.methods decl.properties
          pure [.ofClass {
            id := again
            classifier := other
            kind := .objcClass
            supertypes := root :: protocols
            properties := members.2
            functions := members.1 }] : Attempt (List StubElement)).run := by
    refine .attempt (.mapM simulates.protocolType _) fun protocols others inherited => ?_
    refine .attempt (simulates.buildMembers (View.same_none _) _ _ _) fun members last all => .ok ?_
    obtain ⟨functions, properties⟩ := Prod.mk.inj all
    unfold View.Same at name number inherited supertype ⊢
    simp [name, number, inherited, supertype, functions, properties]
  cases decl.superclass with
  | none => exact continues (View.Same.interop _ _)
  | some superclass =>
      exact .attempt (simulates.classType superclass) fun _ _ same => continues same

theorem buildCategory (decl : ObjCCategoryDecl) :
    comparison.Agree (index.buildCategory decl).run (index.buildCategory decl).run := by
  unfold Index.buildCategory
  split
  · exact .throw _
  refine .attempt (simulates.classType _) fun receiver other same => ?_
  refine .attempt (.lift simulates.freshStub) fun id again number => ?_
  have receivers : comparison.view.Same (some receiver) (some other) := congrArg some same
  refine .attempt (simulates.buildMembers receivers _ _ _) fun members last all => .ok ?_
  obtain ⟨functions, properties⟩ := Prod.mk.inj all
  have nothing : (∅ : StubTree) = ⟨[], [], [], [], []⟩ := rfl
  unfold View.Same at number ⊢
  simp [number, functions, properties, nothing]

/-- Attempts at a declaration give what looks the same. -/
theorem buildDeclaration {decl : Declaration} (declared : decl ∈ index.declarations)
    (records : decl.kind = .enumeration → ∀ name strict,
      comparison.Agree (Run.recordStrictness name strict) (Run.recordStrictness name strict)) :
    comparison.Agree (index.buildDeclaration decl).run (index.buildDeclaration decl).run := by
  rw [Index.buildDeclaration_eq]
  refine .within _ ?_
  cases decl with
  | struct decl => exact .untabled (simulates.buildStruct declared)
  | enumeration decl => exact simulates.buildEnum declared (records rfl)
  | typedef decl => exact .untabled (simulates.buildTypedef declared)
  | nativeClass decl => exact .untabled (simulates.buildClass declared)
  | objcProtocol decl => exact .untabled (simulates.buildProtocol declared)
  | objcClass decl => exact .untabled (simulates.buildObjCClass declared)
  | objcCategory decl => exact .untabled (simulates.buildCategory decl)
  | «global» decl => exact simulates.buildGlobal decl
  | function decl => exact simulates.buildFunction decl
  | macroConstant decl => exact .untabled (simulates.buildMacroConstant decl)
  | wrappedMacro decl => exact simulates.buildWrappedMacro decl

/-- Attempts at any declarations come to what looks the same. -/
theorem outcomes (decls : List Declaration)
    (declared : ∀ decl ∈ decls, decl ∈ index.declarations)
    (records : ∀ name strict, comparison.Agree (Run.recordStrictness name strict)
      (Run.recordStrictness name strict)) :
    comparison.Agree (index.outcomes decls) (index.outcomes decls) := by
  induction decls with
  | nil => exact .pure rfl
  | cons decl rest ih =>
      unfold Index.outcomes
      refine .bind (simulates.buildDeclaration (declared _ List.mem_cons_self) fun _ => records) ?_
      intro result again same
      refine .bind (ih fun other later => declared other (List.mem_cons_of_mem _ later)) ?_
      intro others more all
      exact .pure (congrArg₂ (fun result others => (decl, result) :: others) same all)

end Comparison.Simulates

end NativeBindings
