import NativeBindings.Proofs.Build.Drafts
import NativeBindings.Proofs.Stub.Elements

namespace NativeBindings

/-! # What builders leave behind

Each builder, from any run on: what it gives if it ends well, and that it numbers
its stubs anew.
-/

/-- The numbers of all stubs that a declaration gave. -/
def Built.ids (built : Built) : List StubId := built.elements.flatMap (·.ids)

theorem exists_of_sublistForall₂ {α β : Type} {related : α → β → Prop} {first : List α}
    {second : List β} (some : List.SublistForall₂ related first second) {item : α}
    (member : item ∈ first) : ∃ other ∈ second, related item other := by
  induction some with
  | nil => cases member
  | cons head _ ih =>
      rcases List.mem_cons.mp member with rfl | later
      · exact ⟨_, List.mem_cons_self, head⟩
      · obtain ⟨other, listed, holds⟩ := ih later
        exact ⟨other, List.mem_cons_of_mem _ listed, holds⟩
  | cons_right _ ih =>
      obtain ⟨other, listed, holds⟩ := ih member
      exact ⟨other, List.mem_cons_of_mem _ listed, holds⟩

theorem sublistForall₂_imp {α β : Type} {related weaker : α → β → Prop} {first : List α}
    {second : List β} (some : List.SublistForall₂ related first second)
    (implies : ∀ item ∈ first, ∀ other ∈ second, related item other → weaker item other) :
    List.SublistForall₂ weaker first second := by
  induction some with
  | nil => exact .nil
  | cons head _ ih =>
      refine .cons (implies _ List.mem_cons_self _ List.mem_cons_self head) (ih ?_)
      exact fun item member other listed =>
        implies item (List.mem_cons_of_mem _ member) other (List.mem_cons_of_mem _ listed)
  | cons_right _ ih =>
      exact .cons_right (ih fun item member other listed =>
        implies item member other (List.mem_cons_of_mem _ listed))

namespace Index

variable {index : Index} {run : Run}

theorem leaves_represent (type : QualType) :
    (index.represent type).Leaves run fun after => index.Answers after type := by
  refine ⟨(index.finds_represent type).grows run, fun representation found => ?_⟩
  exact answers_of_represent (Prod.ext found rfl)

theorem leaves_classifier (decl : Declaration) :
    Leaves (index.classifier decl) run fun after answer =>
      (∀ id, decl.typeId? = some id → after.classifiers.get? id = some answer) ∧
        ∀ classifier, answer = some classifier → after.Names decl classifier :=
  ⟨index.grows_classifier decl run, fun _ typeId => index.classifier_known typeId run,
    fun _ found => index.names_of_classifier (Prod.ext found rfl)⟩

theorem leaves_required (type : QualType) :
    (index.required type).Leaves run fun after => index.Answers after type := by
  unfold required
  refine .bind (.lift (leaves_represent type)) fun result after _ found => ?_
  cases result with
  | some representation => exact .pure (found representation rfl)
  | none => exact .throw _

theorem leaves_resolved (decl : Declaration) (id : DeclId) :
    (index.resolved decl id).Leaves run fun after => after.Names decl := by
  unfold resolved
  refine .bind (.lift (leaves_classifier decl)) fun answer after _ ⟨_, named⟩ => ?_
  cases answer with
  | some classifier => exact .pure (named classifier rfl)
  | none => exact .throw _

theorem leaves_resultType (type : QualType) :
    (index.resultType type).Leaves run fun after => index.ResultGiven after type := by
  unfold resultType
  split
  · rename_i isVoid
    exact .pure (.void isVoid)
  · rename_i notVoid
    refine .bind (leaves_required type) fun representation after _ answers => .pure ?_
    exact .value (Bool.eq_false_iff.mpr notVoid) answers

theorem leaves_parameterType (takesStrings : Bool) (place : Nat) (name : String)
    (type : QualType) :
    Attempt.Leaves (index.parameterType ((unmarked takesStrings).map (· place)) name type) run
      fun after => index.ParameterGiven after takesStrings type := by
  rw [parameterType_unmarked]
  split
  · rename_i string
    rw [Bool.and_eq_true] at string
    exact .pure (.string string.1 string.2)
  · rename_i plain
    rw [Bool.not_eq_true] at plain
    refine .within _ (.bind (leaves_required type) fun _ _ _ answers => .pure ?_)
    exact .value plain answers

theorem leaves_parameterStubs {takesStrings isVariadic : Bool} {place : Nat}
    {names : List String} {parameters : List Parameter}
    (fit : names.length = parameters.length + if isVariadic then 1 else 0) :
    (index.parameterStubs (unmarked takesStrings) place names parameters).Leaves run fun after =>
      index.ParametersGiven after takesStrings isVariadic parameters := by
  induction parameters generalizing place names run with
  | nil =>
      cases isVariadic with
      | false =>
          cases List.eq_nil_of_length_eq_zero fit
          exact .pure (.nil rfl)
      | true =>
          obtain ⟨name, rfl⟩ := List.length_eq_one_iff.mp fit
          exact .pure (.further rfl)
  | cons parameter parameters ih =>
      cases names with
      | nil =>
          simp only [List.length_nil, List.length_cons] at fit
          omega
      | cons name names =>
          have rest : names.length = parameters.length + if isVariadic then 1 else 0 := by
            simp only [List.length_cons] at fit
            omega
          unfold parameterStubs
          refine .bind (leaves_parameterType _ _ _ _) fun type mid _ given => ?_
          refine .bind (ih rest) fun stubs after le others => .pure ?_
          exact .cons (given.mono le) others

theorem leaves_signature (takesStrings isVariadic : Bool) (parameters : List Parameter)
    (result : QualType) :
    (index.signature (unmarked takesStrings) isVariadic parameters result).Leaves run
      fun after signature =>
      index.SignatureGiven after takesStrings isVariadic parameters result signature.1
        signature.2 := by
  unfold signature
  refine .bind (leaves_parameterStubs (length_parameterNames parameters isVariadic))
    fun stubs mid _ given => ?_
  refine .bind (.within _ (leaves_resultType result)) fun target after le resultGiven => .pure ?_
  exact ⟨given.mono le, resultGiven⟩

theorem fieldAccessor?_ne_bridge {field : Field} {info : TypeInfo} {accessor : Accessor}
    (found : fieldAccessor? field info = some accessor) : accessor ≠ .bridge := by
  rintro rfl
  unfold fieldAccessor? at found
  split at found
  · split at found <;> cases found
  · cases found

theorem FieldBuilt.given {field : Field} {stub : PropertyStub}
    (built : index.FieldBuilt run field stub) : index.FieldGiven run field stub := by
  obtain ⟨representation, accessor, answers, found, type, kind⟩ := built.access
  exact ⟨⟨_, accessor, fieldAccessor?_ne_bridge found, kind⟩, built.receiver, representation,
    answers, type⟩

theorem leaves_buildField (field : Field) :
    (index.buildField field).Leaves run fun after stub =>
      index.FieldBuilt after field stub ∧ run.Numbered after [stub.id] := by
  unfold buildField
  refine .bind (leaves_represent _) fun representation asked before answers => ?_
  refine .bind (.ofOption _) fun accessor mid le found => ?_
  refine .bind (.lift .freshStub) fun id after later numbered => .pure ⟨⟨rfl, rfl, ?_⟩, ?_⟩
  · exact ⟨representation, accessor, answers.mono (le_trans le later), found, rfl, rfl⟩
  · exact numbered.after_le (le_trans before le)

private theorem leaves_field? (field : Field) {goal : Run → List PropertyStub → Prop}
    {next : Option PropertyStub → StateM Run (List PropertyStub)}
    (continues : ∀ stub? mid, run ≤ mid →
      (∀ stub, stub? = some stub → index.FieldBuilt mid field stub ∧ run.Numbered mid [stub.id]) →
      Leaves (next stub?) mid goal) :
    Leaves (if field.name = "" then pure none >>= next
      else (index.buildField field).run >>= next) run goal := by
  split
  · exact .bind (.pure nofun) continues
  · exact .bind (leaves_buildField field) continues

/-- Some of the fields give properties, in order. -/
theorem leaves_buildFields (fields : List Field) :
    Leaves (index.buildFields fields) run fun after stubs =>
      List.SublistForall₂ (fun stub field => index.FieldBuilt after field stub) stubs fields ∧
        run.Numbered after (stubs.map (·.id)) := by
  induction fields generalizing run with
  | nil => exact .pure ⟨.nil, .nil le_rfl⟩
  | cons field rest ih =>
      unfold buildFields
      refine leaves_field? field fun stub? mid before given => ?_
      refine .bind ih fun stubs after le ⟨others, numbered⟩ => .pure ?_
      cases stub? with
      | none => exact ⟨.cons_right others, numbered.after_le before⟩
      | some first =>
          obtain ⟨firstBuilt, firstNumbered⟩ := given first rfl
          exact ⟨.cons (firstBuilt.mono le) others, firstNumbered.append numbered⟩

theorem leaves_buildStruct (decl : StructDecl) :
    (index.buildStruct decl).untabled.Leaves run fun after built =>
      index.Gives after (.struct decl) built ∧ run.Numbered after built.ids := by
  refine .untabled ?_
  unfold buildStruct
  refine .bind (leaves_resolved _ _) fun classifier named le₀ known => ?_
  refine .bind (.lift .freshStub) fun id mid le₁ numbered => ?_
  split
  · rename_i isForward
    refine .pure ⟨.forwardStruct isForward (known.mono le₁), ?_⟩
    exact numbered.after_le le₀
  · rename_i layout found
    refine .bind (.lift (leaves_buildFields _)) fun properties after le₂ ⟨fields, more⟩ => .pure ?_
    refine ⟨.struct found (known.mono (le_trans le₁ le₂)) fun property member => ?_, ?_⟩
    · obtain ⟨field, listed, built⟩ := exists_of_sublistForall₂ fields member
      exact ⟨field, listed, built.given⟩
    · refine ((numbered.after_le le₀).append more).perm ?_
      simp [Built.ids, StubElement.ids]

theorem leaves_constantProperties (type : TargetType) (entries : List EnumEntry) :
    Leaves (constantProperties type entries) run fun after constants =>
      List.Forall₂ (ConstantGiven type) entries constants ∧
        run.Numbered after (constants.flatMap (·.ids)) := by
  induction entries generalizing run with
  | nil => exact .pure ⟨.nil, .nil le_rfl⟩
  | cons entry rest ih =>
      unfold constantProperties
      refine .bind .freshStub fun id mid _ numbered => ?_
      refine .bind ih fun constants after _ ⟨given, more⟩ => .pure ?_
      exact ⟨.cons ⟨id, rfl⟩ given, numbered.append more⟩

theorem leaves_buildStrict {decl : EnumDecl} {classifier : Classifier} {base : Representation}
    {entries : List EnumEntry} (known : run.Names (.enumeration decl) classifier)
    (strict : run.config.isStrict decl) (answers : index.Answers run decl.base base)
    (listed : index.enumEntries run.config.platform decl = some entries) :
    (index.buildStrict decl classifier base entries).built.Leaves run fun after built =>
      index.Gives after (.enumeration decl) built ∧ run.Numbered after built.ids := by
  rw [built_buildStrict]
  refine .bind (.lift .freshStub) fun id mid le₀ numbered => ?_
  refine .bind (leaves_required _) fun representation after le₁ _ => .pure ⟨?_, ?_⟩
  · have le := le_trans le₀ le₁
    exact .strictEnum (known.mono le) (le.config ▸ strict) (answers.mono le) (le.config ▸ listed)
  · exact numbered.before_le le₁

theorem leaves_buildOpen {decl : EnumDecl} {classifier : Classifier} {base : Representation}
    {entries : List EnumEntry} (known : run.Names (.enumeration decl) classifier)
    (isOpen : run.config.isStrict decl = false) (answers : index.Answers run decl.base base)
    (listed : index.enumEntries run.config.platform decl = some entries) :
    Leaves (buildOpen classifier base entries) run fun after elements =>
      index.Gives after (.enumeration decl) { elements } ∧
        run.Numbered after (Built.ids { elements }) := by
  unfold buildOpen
  refine .bind .freshStub fun value _ le₀ first => ?_
  refine .bind .freshStub fun memory _ le₁ second => ?_
  refine .bind (leaves_constantProperties _ _) fun constants after le₂ ⟨given, more⟩ =>
    .pure ⟨?_, ?_⟩
  · have le := le_trans le₀ (le_trans le₁ le₂)
    exact .openEnum (known.mono le) (le.config ▸ isOpen) (answers.mono le) (le.config ▸ listed)
      given
  · refine ((first.append second).append more).perm ?_
    simp [Built.ids, StubElement.ids]

theorem leaves_buildEnum (decl : EnumDecl) :
    (index.buildEnum decl).built.Leaves run fun after built =>
      index.Gives after (.enumeration decl) built ∧ run.Numbered after built.ids := by
  rw [built_buildEnum]
  refine .bind (leaves_required _) fun base mid le₀ answers => .get ?_
  dsimp only
  split
  · exact .throw _
  rename_i entries listed
  refine .bind (.lift (leaves_classifier _)) fun answer asked le₁ ⟨known, named⟩ => ?_
  cases answer with
  | none =>
      refine .bind (.lift (leaves_constantProperties _ _)) fun constants after le₂ ⟨given, more⟩ =>
        .pure ?_
      have unnamed := le₂.classifiers (known _ rfl)
      have le := le_trans le₁ le₂
      refine ⟨.anonymousEnum unnamed (answers.mono le) (le.config ▸ listed) given, ?_⟩
      exact more.after_le (le_trans le₀ le₁)
  | some classifier =>
      -- Between the name and the stubs the strictness is recorded, if the enumeration has a name.
      have decided {later : Run} (le : asked ≤ later) :
          Attempt.Leaves (
            if mid.config.isStrict decl then (index.buildStrict decl classifier base entries).built
            else Attempt.untabled (buildOpen classifier base entries)) later fun after built =>
              index.Gives after (.enumeration decl) built ∧ later.Numbered after built.ids := by
        have named := (named _ rfl).mono le
        have answers := answers.mono (le_trans le₁ le)
        have config := (le_trans le₁ le).config
        split
        · rename_i strict
          exact leaves_buildStrict named (config ▸ strict) answers (config ▸ listed)
        · rename_i isOpen
          exact .untabled (.lift (leaves_buildOpen named (config ▸ Bool.not_eq_true _ ▸ isOpen)
            answers (config ▸ listed)))
      dsimp only
      split
      · refine .bind (.lift (.ofGrows (Run.grows_recordStrictness _ _))) fun _ later le₂ _ => ?_
        refine (decided le₂).mono fun after built _ ⟨gives, numbered⟩ => ⟨gives, ?_⟩
        exact numbered.after_le (le_trans le₀ (le_trans le₁ le₂))
      · refine (decided le_rfl).mono fun after built _ ⟨gives, numbered⟩ => ⟨gives, ?_⟩
        exact numbered.after_le (le_trans le₀ le₁)

theorem leaves_buildTypedef (decl : TypedefDecl) :
    (index.buildTypedef decl).untabled.Leaves run fun after built =>
      index.Gives after (.typedef decl) built ∧ run.Numbered after built.ids := by
  refine .untabled ?_
  unfold buildTypedef
  split
  · rename_i self
    exact .pure ⟨.namesItself self, .nil le_rfl⟩
  rename_i other
  rw [Bool.not_eq_true] at other
  refine .bind (leaves_required _) fun aliased _ le₀ answers => ?_
  refine .bind (leaves_resolved _ _) fun classifier _ le₁ known => ?_
  refine .bind (.lift .freshStub) fun value mid le₂ first => ?_
  have numbered := first.after_le (le_trans le₀ le₁)
  by_cases keeps : index.keepsName decl aliased
  · dsimp only
    rw [if_pos keeps]
    refine .bind (.lift .freshStub) fun memory after le₃ second => .pure ⟨?_, ?_⟩
    · have le := le_trans le₂ le₃
      exact .keptTypedef (known.mono le) (answers.mono (le_trans le₁ le)) keeps
    · exact numbered.append second
  · dsimp only
    rw [if_neg keeps]
    rw [Bool.not_eq_true] at keeps
    refine .pure ⟨?_, numbered⟩
    exact .typedef other (known.mono le₂) (answers.mono (le_trans le₁ le₂)) keeps

theorem leaves_buildFunction (decl : FunctionDecl) :
    (index.buildFunction decl).built.Leaves run fun after built =>
      index.Gives after (.function decl) built ∧ run.Numbered after built.ids := by
  rw [built_buildFunction]
  refine .bind (.lift .freshStub) fun id mid _ numbered => ?_
  refine .bind (leaves_signature true _ _ _) fun signature after le given => .pure ?_
  exact ⟨.function given, numbered.before_le le⟩

theorem leaves_buildGlobal (decl : GlobalDecl) :
    (index.buildGlobal decl).built.Leaves run fun after built =>
      index.Gives after (.global decl) built ∧ run.Numbered after built.ids := by
  rw [built_buildGlobal]
  refine .bind (leaves_required _) fun representation mid le₀ answers => ?_
  refine .bind (.lift .freshStub) fun id after le₁ numbered => .pure ⟨?_, numbered.after_le le₀⟩
  cases isReadOnly : decl.type.isConst || representation.isAggregate with
  | false =>
      rw [Bool.or_eq_false_iff] at isReadOnly
      exact .global isReadOnly.2 (answers.mono le₁)
  | true => exact .readOnlyGlobal (answers.mono le₁)

/-- A macro whose value has a literal if it is taken for one of the macro's type. -/
inductive NumberLiteral (index : Index) (platform : Platform) (decl : MacroConstant) :
    Constant → Prop
  | integer {value literal} : decl.value = .integer value →
      index.integralConstant? platform value decl.type = some literal →
      NumberLiteral index platform decl literal
  | float {value literal} : decl.value = .float value →
      index.floatingConstant? value decl.type = some literal →
      NumberLiteral index platform decl literal

theorem leaves_macroLiteral (decl : MacroConstant) :
    (index.macroLiteral decl).Leaves run fun after found =>
      (∃ text, decl.value = .string text ∧ found = (.string, .string text)) ∨
        ∃ representation, index.Answers after decl.type representation ∧
          found.1 = representation.target ∧
          index.NumberLiteral run.config.platform decl found.2 := by
  unfold macroLiteral
  refine .get ?_
  split
  · rename_i text isString
    exact .pure (.inl ⟨text, isString, rfl⟩)
  · rename_i value isInteger
    refine .bind (leaves_represent _) fun representation mid _ answers => ?_
    refine .bind (.ofOption _) fun constant after le literal => .pure ?_
    exact .inr ⟨representation, answers.mono le, rfl, .integer isInteger literal⟩
  · rename_i value isFloat
    refine .bind (leaves_represent _) fun representation mid _ answers => ?_
    refine .bind (.ofOption _) fun constant after le literal => .pure ?_
    exact .inr ⟨representation, answers.mono le, rfl, .float isFloat literal⟩

theorem leaves_buildMacroConstant (decl : MacroConstant) :
    (index.buildMacroConstant decl).untabled.Leaves run fun after built =>
      index.Gives after (.macroConstant decl) built ∧ run.Numbered after built.ids := by
  refine .untabled ?_
  unfold buildMacroConstant
  refine .bind (.lift (leaves_macroLiteral decl)) fun literal? mid le₀ found => ?_
  cases literal? with
  | none => exact .pure ⟨.noConstant, .nil le₀⟩
  | some literal =>
      obtain ⟨type, constant⟩ := literal
      refine .bind (.lift .freshStub) fun id after le₁ numbered =>
        .pure ⟨?_, numbered.after_le le₀⟩
      rcases found _ rfl with ⟨text, -, same⟩ | ⟨representation, answers, same, -⟩
      · cases same
        exact .stringConstant
      · cases same
        exact .constant (answers.mono le₁)

theorem leaves_buildWrappedMacro (decl : WrappedMacro) :
    (index.buildWrappedMacro decl).built.Leaves run fun after built =>
      index.Gives after (.wrappedMacro decl) built ∧ run.Numbered after built.ids := by
  rw [built_buildWrappedMacro]
  refine .bind (leaves_required _) fun representation mid le₀ answers => ?_
  refine .bind (.lift .freshStub) fun id after le₁ numbered => .pure ?_
  exact ⟨.wrappedMacro (answers.mono le₁), numbered.after_le le₀⟩

theorem leaves_buildMethod (decl : ClassDecl) (number : Nat) (method : MethodDecl) :
    (index.buildMethod decl number method).Leaves run fun after stub =>
      index.MethodGiven after decl number method stub ∧ run.Numbered after [stub.id] := by
  unfold buildMethod
  split
  · exact .throw_bind _
  rename_i fixed
  rw [Bool.not_eq_true] at fixed
  refine .bind (.lift .freshStub) fun id mid _ numbered => ?_
  refine .bind (leaves_signature false _ _ _) fun signature after le given => .pure ?_
  exact ⟨⟨fixed, rfl, rfl, rfl, given⟩, numbered.before_le le⟩

theorem leaves_buildMethods (decl : ClassDecl) (number : Nat) (methods : List MethodDecl) :
    (index.buildMethods decl number methods).Leaves run fun after stubs =>
      List.Forall₂ (fun method stub => index.MethodGiven after decl method.2 method.1 stub)
          (methods.zipIdx number) stubs ∧
        run.Numbered after (stubs.map (·.id)) := by
  induction methods generalizing number run with
  | nil => exact .pure ⟨.nil, .nil le_rfl⟩
  | cons method rest ih =>
      unfold buildMethods
      refine .bind (.within _ (leaves_buildMethod _ _ _)) fun stub mid _ ⟨given, first⟩ => ?_
      refine .bind (ih _) fun stubs after le ⟨others, more⟩ => .pure ?_
      exact ⟨.cons (given.mono le) others, first.append more⟩

theorem leaves_buildClass (decl : ClassDecl) :
    (index.buildClass decl).untabled.Leaves run fun after built =>
      index.Gives after (.nativeClass decl) built ∧ run.Numbered after built.ids := by
  refine .untabled ?_
  unfold buildClass
  refine .bind (leaves_resolved _ _) fun classifier _ le₀ known => ?_
  refine .bind (.lift .freshStub) fun id _ le₁ first => ?_
  refine .bind (leaves_buildMethods _ _ _) fun functions after le₂ ⟨methods, more⟩ => .pure ⟨?_, ?_⟩
  · exact .nativeClass (known.mono (le_trans le₁ le₂)) methods
  · refine ((first.after_le le₀).append more).perm ?_
    simp [Built.ids, StubElement.ids]

theorem leaves_buildObjCMethod (container : DeclId) (receiver : Option TargetType)
    (method : ObjCMethod) :
    (index.buildObjCMethod container receiver method).Leaves run fun after stub =>
      index.ObjCMethodGiven after container receiver method stub ∧
        run.Numbered after [stub.id] := by
  unfold buildObjCMethod
  refine .within _ ?_
  split
  · exact .throw_bind _
  refine .bind (.lift .freshStub) fun id mid _ numbered => ?_
  refine .bind (leaves_signature false _ _ _) fun signature after le given => .pure ?_
  exact ⟨⟨rfl, rfl, rfl, given⟩, numbered.before_le le⟩

theorem leaves_buildObjCProperty (receiver : Option TargetType) (property : ObjCProperty) :
    (index.buildObjCProperty receiver property).Leaves run fun after stub =>
      index.ObjCPropertyGiven after receiver property stub ∧ run.Numbered after [stub.id] := by
  unfold buildObjCProperty
  refine .within _ ?_
  refine .bind (leaves_required _) fun representation mid le₀ answers => ?_
  refine .bind (.lift .freshStub) fun id after le₁ numbered => .pure ?_
  exact ⟨⟨rfl, rfl, rfl, representation, answers.mono le₁, rfl⟩, numbered.after_le le₀⟩

theorem leaves_buildMembers (container : DeclId) (receiver : Option TargetType)
    (methods : List ObjCMethod) (properties : List ObjCProperty) :
    (index.buildMembers container receiver methods properties).Leaves run fun after members =>
      index.MembersGiven after container receiver methods properties members.1 members.2 ∧
        run.Numbered after (members.1.map (·.id) ++ members.2.map (·.id)) := by
  unfold buildMembers
  refine .bind (.mapM (fun method after => index.ObjCMethodGiven after container receiver method)
    ObjCMethodGiven.mono fun method _ => leaves_buildObjCMethod _ _ method) ?_
  rintro functions mid _ ⟨first, numbered⟩
  refine .bind (.mapM (fun property after => index.ObjCPropertyGiven after receiver property)
    ObjCPropertyGiven.mono fun property _ => leaves_buildObjCProperty _ property) ?_
  rintro stubs after le ⟨second, more⟩
  refine .pure ⟨⟨first.imp fun _ _ given => given.mono le, second⟩, ?_⟩
  simpa only [List.map_eq_flatMap] using numbered.append more

theorem leaves_protocolType (id : DeclId) :
    (index.protocolType id).Leaves run fun after => index.ProtocolGiven after id := by
  unfold protocolType
  split
  · rename_i decl found
    exact .bind (leaves_resolved _ _) fun _ _ _ known => .pure (.named found known)
  · exact .throw _

theorem leaves_classType (id : DeclId) :
    (index.classType id).Leaves run fun after => index.ClassGiven after id := by
  unfold classType
  split
  · rename_i decl found
    exact .bind (leaves_resolved _ _) fun _ _ _ known => .pure (.named found known)
  · exact .throw _

theorem leaves_protocolTypes (ids : List DeclId) :
    Attempt.Leaves (ids.mapM index.protocolType) run fun after types =>
      List.Forall₂ (index.ProtocolGiven after) ids types := by
  have each (id : DeclId) (run : Run) :
      (index.protocolType id).Leaves run fun after type =>
        index.ProtocolGiven after id type ∧ run.Numbered after [] :=
    (leaves_protocolType id).mono fun _ _ le given => ⟨given, .nil le⟩
  exact (Attempt.Leaves.mapM (fun id after => index.ProtocolGiven after id) ProtocolGiven.mono
    each).mono fun _ _ _ given => given.1

theorem leaves_buildProtocol (decl : ObjCProtocolDecl) :
    (index.buildProtocol decl).untabled.Leaves run fun after built =>
      index.Gives after (.objcProtocol decl) built ∧ run.Numbered after built.ids := by
  refine .untabled ?_
  unfold buildProtocol
  refine .bind (leaves_resolved _ _) fun classifier _ le₀ known => ?_
  refine .bind (.lift .freshStub) fun id _ le₁ first => ?_
  refine .bind (leaves_protocolTypes _) fun protocols _ le₂ supertypes => ?_
  refine .bind (leaves_buildMembers _ _ _ _) fun members after le₃ ⟨given, more⟩ => .pure ⟨?_, ?_⟩
  · exact .objcProtocol (known.mono (le_trans le₁ (le_trans le₂ le₃)))
      (supertypes.imp fun _ _ given => given.mono le₃) given
  · refine (((first.after_le le₀).before_le le₂).append more).perm ?_
    simpa [Built.ids, StubElement.ids] using List.perm_append_comm

private theorem leaves_superclass (id? : Option DeclId) {goal : Run → List StubElement → Prop}
    {next : TargetType → Attempt (List StubElement)}
    (continues : ∀ type mid, run ≤ mid → index.SuperclassGiven mid id? type →
      (next type).Leaves mid goal) :
    Attempt.Leaves (match id? with
      | some superclass => index.classType superclass >>= next
      | none => pure (.interop "ObjCObjectBase") >>= next) run goal := by
  cases id? with
  | some id =>
      exact .bind (leaves_classType id) fun type mid le given =>
        continues type mid le (.inherited given)
  | none => exact continues _ _ le_rfl .root

theorem leaves_buildObjCClass (decl : ObjCClassDecl) :
    (index.buildObjCClass decl).untabled.Leaves run fun after built =>
      index.Gives after (.objcClass decl) built ∧ run.Numbered after built.ids := by
  refine .untabled ?_
  unfold buildObjCClass
  refine .bind (leaves_resolved _ _) fun classifier _ le₀ known => ?_
  refine .bind (.lift .freshStub) fun id _ le₁ first => ?_
  refine leaves_superclass _ fun superclass _ le₂ inherited => ?_
  refine .bind (leaves_protocolTypes _) fun protocols _ le₃ supertypes => ?_
  refine .bind (leaves_buildMembers _ _ _ _) fun members after le₄ ⟨given, more⟩ => .pure ⟨?_, ?_⟩
  · exact .objcClass (known.mono (le_trans le₁ (le_trans le₂ (le_trans le₃ le₄))))
      (inherited.mono (le_trans le₃ le₄)) (supertypes.imp fun _ _ given => given.mono le₄) given
  · refine (((first.after_le le₀).before_le (le_trans le₂ le₃)).append more).perm ?_
    simpa [Built.ids, StubElement.ids] using List.perm_append_comm

theorem leaves_buildCategory (decl : ObjCCategoryDecl) :
    (index.buildCategory decl).untabled.Leaves run fun after built =>
      index.Gives after (.objcCategory decl) built ∧ run.Numbered after built.ids := by
  refine .untabled ?_
  unfold buildCategory
  split
  · exact .throw _
  refine .bind (leaves_classType _) fun receiver _ le₀ extended => ?_
  refine .bind (.lift .freshStub) fun id _ le₁ first => ?_
  refine .bind (leaves_buildMembers _ _ _ _) fun members after le₂ ⟨given, more⟩ => .pure ⟨?_, ?_⟩
  · exact .objcCategory (extended.mono (le_trans le₁ le₂)) given
  · refine ((first.after_le le₀).append more).perm ?_
    simp [Built.ids, StubElement.ids]

/-- What an attempt at a declaration leaves behind. -/
theorem leaves_buildDeclaration (decl : Declaration) :
    (index.buildDeclaration decl).Leaves run fun after built =>
      index.Gives after decl built ∧ run.Numbered after built.ids := by
  rw [buildDeclaration_eq]
  refine .within _ ?_
  cases decl with
  | struct decl => exact leaves_buildStruct decl
  | enumeration decl => exact leaves_buildEnum decl
  | typedef decl => exact leaves_buildTypedef decl
  | nativeClass decl => exact leaves_buildClass decl
  | objcProtocol decl => exact leaves_buildProtocol decl
  | objcClass decl => exact leaves_buildObjCClass decl
  | objcCategory decl => exact leaves_buildCategory decl
  | «global» decl => exact leaves_buildGlobal decl
  | function decl => exact leaves_buildFunction decl
  | macroConstant decl => exact leaves_buildMacroConstant decl
  | wrappedMacro decl => exact leaves_buildWrappedMacro decl

end Index

end NativeBindings
