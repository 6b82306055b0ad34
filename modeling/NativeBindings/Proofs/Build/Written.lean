import NativeBindings.Proofs.Build.Library
import NativeBindings.Proofs.Stub.BridgeTable

namespace NativeBindings

/-! # What drafts write

A draft writes into its table only under numbers that it handed out itself, whether it ends
well or fails later on.  So what a failed draft wrote is under numbers that no stub of any
other declaration has.
-/

/-- The number that an entry is made under. -/
def TableEntry.stub : TableEntry → StubId
  | .getter property _ => property
  | .setter property _ => property
  | .enumeration stub _ => stub
  | .mark key _ => key.1

theorem BridgeTable.mem_referenced_enter {table : BridgeTable} {id : StubId} (entry : TableEntry)
    (member : id ∈ (table.enter entry).referenced) : id ∈ table.referenced ∨ id = entry.stub := by
  rw [mem_referenced] at member ⊢
  cases entry with
  | getter | setter | enumeration | mark =>
      simp only [enter, addGetter, addSetter, addEnumeration, markString,
        SortedMap.mem_keys_insert] at member
      grind [TableEntry.stub]

namespace Draft

variable {α β : Type} {ids : List StubId}

/-- A draft writes only under the given numbers, and under those that it hands out. -/
def Writes (ids : List StubId) (draft : Draft α) : Prop :=
  ∀ table written run after result, (draft.run.run table).run run = ((result, written), after) →
    run ≤ after ∧ ∀ id ∈ written.referenced,
      id ∈ table.referenced ∨ id ∈ ids ∨ run.nextStub ≤ id.number ∧ id.number < after.nextStub

namespace Writes

theorem pure (value : α) : (Pure.pure value : Draft α).Writes ids := by
  intro table written run after result ends
  cases ends
  exact ⟨le_rfl, fun _ => .inl⟩

theorem throw (error : BuildError) : (throw error : Draft α).Writes ids := by
  intro table written run after result ends
  cases ends
  exact ⟨le_rfl, fun _ => .inl⟩

theorem enter (entry : TableEntry) : (Draft.edit (·.enter entry)).Writes (entry.stub :: ids) := by
  intro table written run after result ends
  cases ends
  refine ⟨le_rfl, fun id member => ?_⟩
  rcases BridgeTable.mem_referenced_enter entry member with before | rfl
  · exact .inl before
  · exact .inr (.inl List.mem_cons_self)

theorem attempt {attempt : Attempt α} (grows : Grows attempt.run) :
    (liftM attempt : Draft α).Writes ids := by
  intro table written run after result ends
  rw [run_liftM table (rfl : attempt.run run = (_, _))] at ends
  cases ends
  exact ⟨grows run, fun _ => .inl⟩

theorem lift {compute : StateM Run α} (grows : Grows compute) :
    (liftM compute : Draft α).Writes ids :=
  .attempt (grows.bind fun _ => .pure _)

theorem within (place : BuildError → BuildError) {draft : Draft α} (writes : draft.Writes ids) :
    Draft.Writes ids (Attempt.within place draft) := by
  intro table written run after result ends
  rcases inner : (draft.run.run table).run run with ⟨⟨value, last⟩, mid⟩
  rw [run_within place inner] at ends
  cases ends
  exact writes _ _ _ _ _ inner

theorem bind {draft : Draft α} {next : α → Draft β} (first : draft.Writes ids)
    (second : ∀ value, (next value).Writes ids) : (draft >>= next).Writes ids := by
  intro table written run after result ends
  rcases inner : (draft.run.run table).run run with ⟨⟨value, last⟩, mid⟩
  obtain ⟨le, own⟩ := first _ _ _ _ _ inner
  cases value with
  | error error =>
      rw [run_bind_of_error inner] at ends
      cases ends
      exact ⟨le, own⟩
  | ok value =>
      rw [run_bind_of_ok inner] at ends
      obtain ⟨beyond, more⟩ := second value _ _ _ _ _ ends
      refine ⟨le_trans le beyond, fun id member => ?_⟩
      have early := le.stubs
      have late := beyond.stubs
      rcases more id member with before | given | between
      · rcases own id before with before | given | between
        · exact .inl before
        · exact .inr (.inl given)
        · exact .inr (.inr (by omega))
      · exact .inr (.inl given)
      · exact .inr (.inr (by omega))

/-- A number that is handed out may be written under from then on. -/
theorem freshStub {next : StubId → Draft α} (continues : ∀ id, (next id).Writes (id :: ids)) :
    Draft.Writes ids (do next (← Run.freshStub)) := by
  intro table written run after result ends
  have fresh := run_liftM table (Attempt.run_lift (rfl : Run.freshStub.run run = (_, _)))
  have behind := (run_bind_of_ok fresh).symm.trans ends
  obtain ⟨le, own⟩ := continues _ _ _ _ _ _ behind
  have grown : run.nextStub + 1 ≤ after.nextStub := le.stubs
  refine ⟨le_trans (Run.grows_freshStub run) le, fun id member => ?_⟩
  rcases own id member with before | given | between
  · exact .inl before
  · rcases List.mem_cons.mp given with rfl | given
    · exact .inr (.inr ⟨Nat.le_refl _, grown⟩)
    · exact .inr (.inl given)
  · have lower : run.nextStub + 1 ≤ id.number := between.1
    exact .inr (.inr ⟨Nat.le_of_succ_le lower, between.2⟩)

end Writes

end Draft

theorem Grows.within {α : Type} {attempt : Attempt α} (place : BuildError → BuildError)
    (grows : Grows attempt.run) : Grows (Attempt.within place attempt).run :=
  grows.bind fun _ => .pure _

namespace Index

variable {index : Index} {ids : List StubId}

theorem grows_required (type : QualType) : Grows (index.required type).run :=
  fun _ => (leaves_required type).1

theorem grows_targetType (type : QualType) : Grows (index.targetType type).run := by
  intro run
  have leaves : (index.targetType type).Leaves run fun _ _ => True :=
    .bind (leaves_required type) fun _ _ _ _ => .pure trivial
  exact leaves.1

theorem grows_resultType (type : QualType) : Grows (index.resultType type).run :=
  fun _ => (leaves_resultType type).1

theorem writes_signature (function : StubId) (isVariadic : Bool) (parameters : List Parameter)
    (result : QualType) :
    (index.signature (some (Draft.markString function)) isVariadic parameters result).Writes
      (function :: ids) := by
  have one (place : Nat) (name : String) (type : QualType) : Draft.Writes (function :: ids)
      (index.parameterType (some (Draft.markString function place)) name type) := by
    unfold parameterType
    cases type.stringKind? with
    | none => exact .attempt (.within _ (grows_targetType type))
    | some kind => exact .bind (.enter (.mark (function, place) kind)) fun _ => .pure _
  have all (place : Nat) (names : List String) (parameters : List Parameter) :
      Draft.Writes (function :: ids)
        (index.parameterStubs (some (Draft.markString function)) place names parameters) := by
    induction parameters generalizing place names with
    | nil =>
        match names with
        | [] | [_] | _ :: _ :: _ => exact .pure _
    | cons parameter parameters ih =>
        match names with
        | [] => exact .pure _
        | name :: names => exact .bind (one _ _ _) fun _ => .bind (ih _ _) fun _ => .pure _
  exact .bind (all _ _ _) fun _ =>
    .bind (.attempt (.within _ (grows_resultType result))) fun _ => .pure _

theorem writes_buildFunction (decl : FunctionDecl) : (index.buildFunction decl).Writes ids :=
  .freshStub fun _ => .bind (writes_signature _ _ _ _) fun _ => .pure _

theorem writes_buildGlobal (decl : GlobalDecl) : (index.buildGlobal decl).Writes ids := by
  unfold buildGlobal
  refine .bind (.attempt (grows_required _)) fun representation => .freshStub fun id => ?_
  refine .bind (.enter (.getter id _)) fun _ => ?_
  dsimp only
  split
  · exact .bind (.enter (.setter id _)) fun _ => .pure _
  · exact .pure _

theorem writes_buildWrappedMacro (decl : WrappedMacro) :
    (index.buildWrappedMacro decl).Writes ids :=
  .bind (.attempt (grows_required _)) fun _ => .freshStub fun id =>
    .bind (.enter (.getter id _)) fun _ => .pure _

theorem writes_buildStrict (decl : EnumDecl) (classifier : Classifier) (base : Representation)
    (entries : List EnumEntry) : (index.buildStrict decl classifier base entries).Writes ids :=
  .freshStub fun id => .bind (.attempt (grows_required _)) fun _ =>
    .bind (.enter (.enumeration id _)) fun _ => .pure _

theorem writes_buildEnum (decl : EnumDecl) : (index.buildEnum decl).Writes ids := by
  have constants (type : TargetType) (entries : List EnumEntry) :
      Grows (constantProperties type entries) := fun _ => (leaves_constantProperties _ _).1
  have read : (getThe Run : Draft Run).Writes ids := .attempt fun run => le_refl run
  unfold buildEnum
  refine .bind (.attempt (grows_required _)) fun base => .bind read fun run => ?_
  dsimp only
  split
  · exact .throw _
  rename_i entries _
  refine .bind (.lift (index.grows_classifier _)) fun answer => ?_
  cases answer with
  | none => exact .lift (constants _ _)
  | some classifier =>
      have decided : Draft.Writes ids (
          if run.config.isStrict decl then index.buildStrict decl classifier base entries
          else liftM (buildOpen classifier base entries)) := by
        split
        · exact writes_buildStrict _ _ _ _
        · exact .lift (.bind Run.grows_freshStub fun _ => .bind Run.grows_freshStub fun _ =>
            .bind (constants _ _) fun _ => .pure _)
      dsimp only
      split
      · exact .bind (.lift (Run.grows_recordStrictness _ _)) fun _ => decided
      · exact decided

theorem writes_draftDeclaration (decl : Declaration) : (index.draftDeclaration decl).Writes ids := by
  have plain {attempt : Attempt (List StubElement)}
      (isPlain : index.builder decl = attempt.untabled) : (liftM attempt : Draft _).Writes ids := by
    refine .attempt fun run => ?_
    rw [← index.buildDeclaration_run_untabled isPlain]
    exact (leaves_buildDeclaration decl).1
  refine .within _ ?_
  cases decl with
  | enumeration decl => exact writes_buildEnum decl
  | «global» decl => exact writes_buildGlobal decl
  | function decl => exact writes_buildFunction decl
  | wrappedMacro decl => exact writes_buildWrappedMacro decl
  | _ => exact plain rfl

/-- All that a draft wrote is under numbers of its own, also if it failed. -/
theorem number_of_written {decl : Declaration} {table : BridgeTable} {run after : Run}
    {result : Except BuildError (List StubElement)}
    (ends : ((index.draftDeclaration decl).run.run ∅).run run = ((result, table), after)) :
    ∀ id ∈ table.referenced, run.nextStub ≤ id.number ∧ id.number < after.nextStub := by
  intro id member
  rcases (@writes_draftDeclaration index [] decl _ _ _ _ _ ends).2 id member with
    before | given | between
  · cases before
  · cases given
  · exact between

end Index

end NativeBindings
