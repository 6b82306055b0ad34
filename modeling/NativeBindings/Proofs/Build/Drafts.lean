import NativeBindings.Proofs.Build.Attempt
import NativeBindings.Proofs.Build.Given
import NativeBindings.Proofs.Text.Fresh

namespace NativeBindings

/-! # What drafts come to

A draft that ends well comes to its value and the table it wrote.  Of one that fails only
the error is left: the declaration is skipped, and nobody asks for its table.  So a draft
is an attempt, and one step of it after the other is taken apart as one.
-/

namespace Draft

variable {α β : Type}

section Run

variable {draft : Draft α} {table written : BridgeTable} {run mid : Run}
  {result : Except BuildError α}

theorem run_bind_of_ok {value : α} {next : α → Draft β}
    (ends : (draft.run.run table).run run = ((.ok value, written), mid)) :
    ((draft >>= next).run.run table).run run = ((next value).run.run written).run mid := by
  rw [ExceptT.run_bind, StateT.run_bind, StateT.run_bind, ends]
  rfl

/-- What a draft wrote before it failed stays. -/
theorem run_bind_of_error {error : BuildError} {next : α → Draft β}
    (ends : (draft.run.run table).run run = ((.error error, written), mid)) :
    ((draft >>= next).run.run table).run run = ((.error error, written), mid) := by
  rw [ExceptT.run_bind, StateT.run_bind, StateT.run_bind, ends]
  rfl

theorem run_liftM {attempt : Attempt α} (table : BridgeTable)
    (ends : attempt.run run = (result, mid)) :
    ((liftM attempt : Draft α).run.run table).run run = ((result, table), mid) := by
  change (StateT.lift attempt.run table).run run = _
  rw [StateT.lift, StateT.run_bind, show attempt.run.run run = _ from ends]
  rfl

theorem run_within (place : BuildError → BuildError)
    (ends : (draft.run.run table).run run = ((result, written), mid)) :
    ((Attempt.within place draft).run.run table).run run =
      ((result.mapError place, written), mid) := by
  change ((do pure ((← draft.run).mapError place) : StateT BridgeTable (StateM Run) _).run
    table).run run = _
  rw [StateT.run_bind, StateT.run_bind, ends]
  rfl

end Run

/-- What a draft comes to from a table on. -/
def settled (draft : Draft α) (table : BridgeTable) : Attempt (α × BridgeTable) :=
  ExceptT.mk do
    let (result, table) ← draft.run.run table
    pure (result.map (·, table))

/-- What a draft of a declaration comes to. -/
def built (draft : Draft (List StubElement)) : Attempt Built := do
  let (elements, table) ← draft.settled ∅
  pure { elements, table }

theorem settled_run {draft : Draft α} {table written : BridgeTable} {run mid : Run}
    {result : Except BuildError α}
    (ends : (draft.run.run table).run run = ((result, written), mid)) :
    (draft.settled table).run run = (result.map (·, written), mid) := by
  change (do
    let (result, table) ← draft.run.run table
    pure (result.map (·, table)) : StateM Run _).run run = _
  rw [StateT.run_bind, ends]
  rfl

@[simp] theorem settled_pure (value : α) (table : BridgeTable) :
    settled (pure value) table = pure (value, table) := rfl

@[simp] theorem settled_edit (change : BridgeTable → BridgeTable) (table : BridgeTable) :
    settled (edit change) table = pure ((), change table) := rfl

@[simp] theorem settled_bind (draft : Draft α) (next : α → Draft β) (table : BridgeTable) :
    settled (draft >>= next) table =
      draft.settled table >>= fun (value, table) => (next value).settled table := by
  refine Attempt.ext fun run => ?_
  rcases ends : (draft.run.run table).run run with ⟨⟨result, written⟩, mid⟩
  have settles := settled_run ends
  cases result with
  | ok value =>
      rcases later : ((next value).run.run written).run mid with ⟨⟨result, last⟩, after⟩
      rw [run_bind_ok settles]
      exact (settled_run ((run_bind_of_ok ends).trans later)).trans (settled_run later).symm
  | error error =>
      rw [run_bind_error settles]
      exact settled_run (run_bind_of_error ends)

@[simp] theorem settled_liftM (attempt : Attempt α) (table : BridgeTable) :
    settled (liftM attempt) table = attempt >>= fun value => pure (value, table) := by
  refine Attempt.ext fun run => ?_
  rcases ends : attempt.run run with ⟨result, mid⟩
  refine (settled_run (run_liftM table ends)).trans ?_
  cases result with
  | ok value =>
      rw [run_bind_ok ends]
      rfl
  | error error =>
      rw [run_bind_error ends]
      rfl

/-- A step that cannot fail is lifted as an attempt. -/
@[simp] theorem settled_lift (compute : StateM Run α) (table : BridgeTable) :
    settled (liftM compute) table =
      (liftM compute : Attempt α) >>= fun value => pure (value, table) :=
  settled_liftM (liftM compute) table

@[simp] theorem settled_within (place : BuildError → BuildError) (draft : Draft α)
    (table : BridgeTable) : settled (Attempt.within place draft) table =
      Attempt.within place (draft.settled table) := by
  refine Attempt.ext fun run => ?_
  rcases ends : (draft.run.run table).run run with ⟨⟨result, written⟩, mid⟩
  rw [settled_run (run_within place ends), Attempt.run_within (settled_run ends)]
  cases result <;> rfl

end Draft

/-- An attempt that has nothing to say beside its stubs. -/
def Attempt.untabled (attempt : Attempt (List StubElement)) : Attempt Built := do
  let elements ← attempt
  pure { elements }

theorem Attempt.Leaves.untabled {attempt : Attempt (List StubElement)} {run : Run}
    {holds : Run → Built → Prop}
    (leaves : attempt.Leaves run fun after elements => holds after { elements }) :
    attempt.untabled.Leaves run holds :=
  leaves.bind fun _ _ _ here => .pure here

theorem Attempt.run_untabled {attempt : Attempt (List StubElement)} {run mid : Run}
    {result : Except BuildError (List StubElement)} (ends : attempt.run run = (result, mid)) :
    attempt.untabled.run run = (result.map fun elements => { elements }, mid) := by
  unfold untabled
  cases result with
  | ok elements => exact run_bind_ok ends
  | error error => exact run_bind_error ends

theorem Attempt.error_of_untabled {attempt : Attempt (List StubElement)} {run after : Run}
    {error : BuildError} (fails : attempt.untabled.run run = (.error error, after)) :
    attempt.run run = (.error error, after) := by
  rcases ends : attempt.run run with ⟨result, last⟩
  rw [Attempt.run_untabled ends] at fails
  cases result <;> cases fails
  rfl

/-- What is made of a value is made of it outside as well. -/
theorem Attempt.within_bind_pure {α β : Type} (place : BuildError → BuildError)
    (attempt : Attempt α) (make : α → β) :
    Attempt.within place (attempt >>= fun value => pure (make value)) =
      Attempt.within place attempt >>= fun value => pure (make value) := by
  have makes {inner : Attempt α} {run mid : Run} {result : Except BuildError α}
      (ends : inner.run run = (result, mid)) :
      (inner >>= fun value => pure (make value)).run run = (result.map make, mid) := by
    cases result with
    | ok value => exact run_bind_ok ends
    | error error => exact run_bind_error ends
  refine Attempt.ext fun run => ?_
  rcases ends : attempt.run run with ⟨result, mid⟩
  rw [Attempt.run_within (makes ends), makes (Attempt.run_within ends)]
  cases result <;> rfl

namespace Draft

theorem built_within (place : BuildError → BuildError) (draft : Draft (List StubElement)) :
    built (Attempt.within place draft) = Attempt.within place draft.built := by
  unfold built
  rw [settled_within, Attempt.within_bind_pure]

theorem built_liftM_bind (attempt : Attempt α) (next : α → Draft (List StubElement)) :
    built (liftM attempt >>= next) = attempt >>= fun value => (next value).built := by
  simp only [built, settled_bind, settled_liftM, bind_assoc, pure_bind]

theorem built_liftM (attempt : Attempt (List StubElement)) :
    built (liftM attempt) = attempt.untabled := by
  simp only [built, settled_liftM, bind_assoc, pure_bind, Attempt.untabled]

end Draft

namespace Index

variable (index : Index)

/-- A way to mark strings that leaves no mark, if a function takes strings. -/
def unmarked : Bool → Option (Nat → StringKind → Attempt Unit)
  | true => some fun _ _ => pure ()
  | false => none

theorem parameterType_unmarked (takesStrings : Bool) (place : Nat) (name : String)
    (type : QualType) :
    index.parameterType ((unmarked takesStrings).map (· place)) name type =
      if takesStrings && type.stringKind?.isSome then pure TargetType.string.nullable
      else Attempt.within (.inParameter name) (index.targetType type) := by
  unfold parameterType
  cases takesStrings with
  | false => rfl
  | true => cases type.stringKind? <;> rfl

/-- A table in which the strings among parameters are marked, one after the other. -/
def markedFrom (function : StubId) : (place : Nat) → List Parameter → BridgeTable → BridgeTable
  | _, [], table => table
  | place, parameter :: rest, table =>
      markedFrom function (place + 1) rest <|
        match parameter.type.stringKind? with
        | some kind => table.markString (function, place) kind
        | none => table

theorem markedFrom_eq (function : StubId) (place : Nat) (parameters : List Parameter)
    (table : BridgeTable) : markedFrom function place parameters table =
      (parameters.mapIdx fun position parameter => parameter.type.stringKind?.map fun kind =>
        ((function, place + position), kind)).reduceOption.foldl
          (fun table mark => table.markString mark.1 mark.2) table := by
  induction parameters generalizing place table with
  | nil => rfl
  | cons parameter rest ih =>
      have later (position : Nat) : place + 1 + position = place + (position + 1) := by omega
      rw [markedFrom, ih, List.mapIdx_cons, Nat.add_zero]
      simp only [later]
      cases parameter.type.stringKind? <;> rfl

theorem settled_parameterType (function : StubId) (place : Nat) (table : BridgeTable)
    (name : String) (type : QualType) :
    (index.parameterType (some (Draft.markString function place)) name type).settled table =
      index.parameterType (some fun _ => pure ()) name type >>= fun target =>
        pure (target, match type.stringKind? with
          | some kind => table.markString (function, place) kind
          | none => table) := by
  unfold parameterType
  cases type.stringKind? with
  | none => exact Draft.settled_liftM _ table
  | some kind =>
      simp only [Draft.markString, Draft.settled_bind, Draft.settled_edit, Draft.settled_pure,
        pure_bind]

theorem settled_parameterStubs (function : StubId) (place : Nat) (table : BridgeTable)
    {names : List String} {parameters : List Parameter}
    (enough : parameters.length ≤ names.length) :
    (index.parameterStubs (some (Draft.markString function)) place names parameters).settled table =
      index.parameterStubs (unmarked true) place names parameters >>= fun stubs =>
        pure (stubs, markedFrom function place parameters table) := by
  induction parameters generalizing place names table with
  | nil =>
      match names with
      | [] | [_] | _ :: _ :: _ => rfl
  | cons parameter parameters ih =>
      match names with
      | name :: names =>
          have behind (table : BridgeTable) :=
            ih (place + 1) table (Nat.le_of_succ_le_succ enough)
          simp only [parameterStubs, unmarked, Option.map_some, Draft.settled_bind,
            settled_parameterType, bind_assoc, pure_bind, behind, Draft.settled_pure, markedFrom]

/-- Whether or not strings are marked, the stubs are the same. -/
theorem parameterStubs_run {function : StubId} {place : Nat} {table marked : BridgeTable}
    {names : List String} {parameters : List Parameter} {stubs : List ParameterStub}
    {run after : Run} (enough : parameters.length ≤ names.length)
    (ends : ((index.parameterStubs (some (Draft.markString function)) place names
      parameters).run.run table).run run = ((.ok stubs, marked), after)) :
    (index.parameterStubs (unmarked true) place names parameters).run run = (.ok stubs, after) := by
  have settles := Draft.settled_run ends
  rw [settled_parameterStubs index function place table enough] at settles
  rcases attempt : (index.parameterStubs (unmarked true) place names parameters).run run with
    ⟨result, mid⟩
  cases result with
  | ok others =>
      rw [run_bind_ok attempt] at settles
      cases settles
      rfl
  | error error =>
      rw [run_bind_error attempt] at settles
      cases settles

theorem length_parameterNames (parameters : List Parameter) (isVariadic : Bool) :
    (parameterNames parameters isVariadic).length =
      parameters.length + if isVariadic then 1 else 0 := by
  cases isVariadic <;> simp [parameterNames, length_freshNames]

theorem settled_signature (function : StubId) (isVariadic : Bool) (parameters : List Parameter)
    (result : QualType) (table : BridgeTable) :
    (index.signature (some (Draft.markString function)) isVariadic parameters result).settled
        table =
      index.signature (unmarked true) isVariadic parameters result >>= fun signature =>
        pure (signature, (stringMarks function parameters).foldl
          (fun table mark => table.markString mark.1 mark.2) table) := by
  have enough : parameters.length ≤ (parameterNames parameters isVariadic).length :=
    length_parameterNames parameters isVariadic ▸ Nat.le_add_right _ _
  have marks := markedFrom_eq function 0 parameters
  simp only [Nat.zero_add] at marks
  simp only [signature, Draft.settled_bind, index.settled_parameterStubs function 0 _ enough,
    Draft.settled_liftM, Draft.settled_pure, bind_assoc, pure_bind, marks, stringMarks]
  rfl

theorem built_buildFunction (decl : FunctionDecl) : (index.buildFunction decl).built = (do
    let id ← Run.freshStub
    let (parameters, result) ←
      index.signature (unmarked true) decl.isVariadic decl.parameters decl.result
    pure {
      elements := [.ofFunction {
        id
        name := simpleName decl.name
        parameters
        result
        origin := .function decl.id
        call := decl.callKind }]
      table := (stringMarks id decl.parameters).foldl (fun table mark =>
        table.markString mark.1 mark.2) ∅ }) := by
  simp only [Draft.built, buildFunction, Draft.settled_bind, Draft.settled_lift,
    settled_signature, Draft.settled_pure, bind_assoc, pure_bind]

theorem built_buildGlobal (decl : GlobalDecl) : (index.buildGlobal decl).built = (do
    let representation ← index.required decl.type
    let id ← Run.freshStub
    let table := BridgeTable.addGetter ∅ id (representation.getter decl.name decl.type)
    let isReadOnly := decl.type.isConst || representation.isAggregate
    pure {
      elements := [.ofProperty {
        id
        name := decl.name
        type := representation.placed
        kind := if isReadOnly then .val .bridge else .var .bridge .bridge }]
      table :=
        if isReadOnly then table
        else table.addSetter id ⟨decl.name, decl.type, representation⟩ }) := by
  simp only [Draft.built, buildGlobal, Draft.settled_bind, Draft.settled_liftM,
    Draft.settled_lift, Draft.settled_edit, bind_assoc, pure_bind]
  refine congrArg _ (funext fun representation => congrArg _ (funext fun id => ?_))
  cases decl.type.isConst || representation.isAggregate <;> rfl

theorem built_buildWrappedMacro (decl : WrappedMacro) : (index.buildWrappedMacro decl).built = (do
    let representation ← index.required decl.type
    let id ← Run.freshStub
    pure {
      elements := [.ofProperty {
        id
        name := decl.name
        type := representation.placed
        kind := .val .bridge }]
      table := BridgeTable.addGetter ∅ id (representation.getter decl.name decl.type) }) := by
  simp only [Draft.built, buildWrappedMacro, Draft.settled_bind, Draft.settled_liftM,
    Draft.settled_lift, Draft.settled_edit, Draft.settled_pure, bind_assoc, pure_bind]

theorem built_buildStrict (decl : EnumDecl) (classifier : Classifier) (base : Representation)
    (entries : List EnumEntry) : (index.buildStrict decl classifier base entries).built = (do
    let id ← Run.freshStub
    let representation ← index.required ⟨classifier.name, false, .enumeration decl.id⟩
    pure {
      elements := [.ofClass {
        id
        classifier
        kind := .enumeration entries base.target
        supertypes := [.interop "CEnum"] }]
      table := BridgeTable.addEnumeration ∅ id representation }) := by
  simp only [Draft.built, buildStrict, Draft.settled_bind, Draft.settled_liftM,
    Draft.settled_lift, Draft.settled_edit, Draft.settled_pure, bind_assoc, pure_bind]

theorem built_buildEnum (decl : EnumDecl) : (index.buildEnum decl).built = (do
    let base ← index.required decl.base
    let config := (← getThe Run).config
    match index.enumEntries config.platform decl with
    | none => throw (.unrepresentable decl.base.spelling)
    | some entries =>
        match ← index.classifier (.enumeration decl) with
        | none => Attempt.untabled (constantProperties base.target entries)
        | some classifier =>
            let strict := config.isStrict decl
            if let some name := decl.name then Run.recordStrictness name strict
            if strict then (index.buildStrict decl classifier base entries).built
            else Attempt.untabled (buildOpen classifier base entries)) := by
  have strict (classifier : Classifier) (base : Representation) (entries : List EnumEntry)
      (isStrict : Bool) :
      Draft.built (if isStrict then index.buildStrict decl classifier base entries
        else liftM (buildOpen classifier base entries)) =
      if isStrict then (index.buildStrict decl classifier base entries).built
        else Attempt.untabled (liftM (buildOpen classifier base entries)) := by
    cases isStrict with
    | true => rfl
    | false => exact Draft.built_liftM _
  unfold buildEnum
  rw [Draft.built_liftM_bind]
  refine congrArg _ (funext fun base => ?_)
  refine (Draft.built_liftM_bind (getThe Run) _).trans (congrArg _ (funext fun run => ?_))
  dsimp only
  cases index.enumEntries run.config.platform decl with
  | none => rfl
  | some entries =>
      refine (Draft.built_liftM_bind (liftM (index.classifier _)) _).trans
        (congrArg _ (funext fun answer => ?_))
      cases answer with
      | none => exact Draft.built_liftM _
      | some classifier =>
          dsimp only
          cases decl.name with
          | none => exact strict classifier base entries _
          | some name =>
              refine (Draft.built_liftM_bind (liftM (Run.recordStrictness name _)) _).trans
                (congrArg _ (funext fun _ => ?_))
              exact strict classifier base entries _

/-- What an attempt at a declaration gives. -/
def buildDeclaration (decl : Declaration) : Attempt Built := (index.draftDeclaration decl).built

/-- The builder of a declaration, which does not say for what it fails. -/
def builder : Declaration → Attempt Built
  | .struct decl => (index.buildStruct decl).untabled
  | .enumeration decl => (index.buildEnum decl).built
  | .typedef decl => (index.buildTypedef decl).untabled
  | .nativeClass decl => (index.buildClass decl).untabled
  | .objcProtocol decl => (index.buildProtocol decl).untabled
  | .objcClass decl => (index.buildObjCClass decl).untabled
  | .objcCategory decl => (index.buildCategory decl).untabled
  | .global decl => (index.buildGlobal decl).built
  | .function decl => (index.buildFunction decl).built
  | .macroConstant decl => (index.buildMacroConstant decl).untabled
  | .wrappedMacro decl => (index.buildWrappedMacro decl).built

theorem buildDeclaration_eq (decl : Declaration) : index.buildDeclaration decl =
    Attempt.within (.inDeclaration decl.kind decl.displayName) (index.builder decl) := by
  unfold buildDeclaration draftDeclaration
  rw [Draft.built_within]
  refine congrArg _ ?_
  cases decl with
  | enumeration | «global» | function | wrappedMacro => rfl
  | _ => exact Draft.built_liftM _

/-- Where a builder has nothing to say beside its stubs, it alone decides on the run. -/
theorem buildDeclaration_run_untabled {decl : Declaration} {attempt : Attempt (List StubElement)}
    (isPlain : index.builder decl = attempt.untabled) (run : Run) :
    ((index.buildDeclaration decl).run.run run).2 = (attempt.run.run run).2 := by
  rw [buildDeclaration_eq, isPlain]
  have ends : attempt.run run = ((attempt.run.run run).1, (attempt.run.run run).2) := rfl
  exact congrArg Prod.snd (Attempt.run_within (Attempt.run_untabled ends))

theorem buildDeclaration_run {decl : Declaration} {run mid : Run}
    {result : Except BuildError (List StubElement)} {table : BridgeTable}
    (ends : ((index.draftDeclaration decl).run.run ∅).run run = ((result, table), mid)) :
    (index.buildDeclaration decl).run.run run =
      (result.map fun elements => { elements, table }, mid) := by
  unfold buildDeclaration Draft.built
  have settles := Draft.settled_run ends
  cases result with
  | ok elements => exact run_bind_ok settles
  | error error => exact run_bind_error settles

theorem buildDeclaration_of_error {decl : Declaration} {run : Run} {error : BuildError}
    (fails : (((index.draftDeclaration decl).run.run ∅).run run).1.1 = .error error) :
    ((index.buildDeclaration decl).run.run run).1 = .error error := by
  rcases ends : ((index.draftDeclaration decl).run.run ∅).run run with ⟨⟨result, table⟩, mid⟩
  rw [ends] at fails
  rw [index.buildDeclaration_run ends, show result = _ from fails]
  rfl

end Index

end NativeBindings
