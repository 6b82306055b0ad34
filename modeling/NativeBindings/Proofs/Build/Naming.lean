import NativeBindings.Proofs.Build.Typed

namespace NativeBindings

/-! # Names over the course of a run

A run may be asked for classifiers, representations and builds in whatever order.  An
answer once given stands, and all but the names of unnamed structs are settled before
the first question.  Those structs are numbered as they are asked about for the first
time, be it from outside or on the way of another question.
-/

/-- Does a declaration take its name from the next number? -/
def Declaration.isUnnamedStruct : Declaration → Bool
  | .struct decl => decl.name.isNone
  | _ => false

/-- The name that the struct at a place in the order of first questions gets. -/
def unnamedStructName (place : Nat) : String := "anonymousStruct" ++ toString (place + 1)

namespace Index

/-- What a run can be asked by someone who has the index. -/
inductive Query (index : Index) where
  | classifier (decl : Declaration) (declared : decl ∈ index.declarations)
  | representation (type : QualType)
  | resultType (type : QualType)
  | build

variable {index : Index} {config : Config} {run : Run}

/-- The run that a question leaves behind. -/
def Query.ask (query : index.Query) (run : Run) : Run :=
  match query with
  | .classifier decl _ => ((index.classifier decl).run run).2
  | .representation type => ((index.represent type).run run).2
  | .resultType type => ((index.resultType type).run.run run).2
  | .build => (index.build.run.run run).2

/-- The run as it is after questions, one after the other. -/
def after (index : Index) (config : Config) (queries : List index.Query) : Run :=
  queries.foldl (fun run query => query.ask run) (.start config)

theorem after_append (earlier later : List index.Query) :
    index.after config (earlier ++ later) =
      later.foldl (fun run query => query.ask run) (index.after config earlier) :=
  List.foldl_append

/-- Builders ask in the same way, so what survives names and numbers survives every
question. -/
theorem Keeping.ask {holds : Run → Prop} (keeping : index.Keeping holds) (query : index.Query)
    (before : holds run) : holds (query.ask run) := by
  cases query with
  | classifier decl declared => exact keeping.classifier decl declared run before
  | representation type => exact keeping.represent type run before
  | resultType type => exact keeping.resultType type run before
  | build =>
      obtain ⟨outcomes, last, builds⟩ := index.exists_builds run
      have ends := builds.build_run
      change holds (index.build.run.run run).2
      rw [show index.build.run.run run = _ from ends]
      exact keeping.builds builds before

theorem Keeping.foldl {holds : Run → Prop} (keeping : index.Keeping holds)
    (queries : List index.Query) (before : holds run) :
    holds (queries.foldl (fun run query => query.ask run) run) := by
  induction queries generalizing run with
  | nil => exact before
  | cons query rest ih => exact ih (keeping.ask query before)

theorem keeping_le (start : Run) : index.Keeping (start ≤ ·) where
  classifier decl _ run before := le_trans before (index.grows_classifier decl run)
  freshStub run before := le_trans before (Run.grows_freshStub run)
  recordStrictness name strict run before :=
    le_trans before (Run.grows_recordStrictness name strict run)

/-- Unnamed structs in the order of their first questions, after one more question. -/
def askedAbout (asked : List DeclId) : Declaration → List DeclId
  | .struct decl => if decl.name.isNone && decl.id ∉ asked then asked ++ [decl.id] else asked
  | _ => asked

/-- A moment of a run, and the unnamed structs that were asked about until then, in the
order of their first questions.  A run names declarations, numbers stubs and records how
enumerations came out; nothing else of it matters to names. -/
inductive Moment (index : Index) (config : Config) : List DeclId → Run → Prop
  | start : Moment index config [] (.start config)
  | asked {asked run decl} : Moment index config asked run → decl ∈ index.declarations →
      Moment index config (askedAbout asked decl) ((index.classifier decl).run run).2
  | numbered {asked run} : Moment index config asked run →
      Moment index config asked (Run.freshStub.run run).2
  | recorded {asked run name strict} : Moment index config asked run →
      Moment index config asked ((Run.recordStrictness name strict).run run).2

theorem keeping_moment (index : Index) (config : Config) :
    index.Keeping fun run => ∃ asked, index.Moment config asked run where
  classifier decl declared run before := by
    obtain ⟨asked, moment⟩ := before
    exact ⟨_, moment.asked declared⟩
  freshStub run before := by
    obtain ⟨asked, moment⟩ := before
    exact ⟨asked, moment.numbered⟩
  recordStrictness name strict run before := by
    obtain ⟨asked, moment⟩ := before
    exact ⟨asked, moment.recorded⟩

/-- The classifier of a declaration that does not depend on a number. -/
def settledClassifier (index : Index) (config : Config) (decl : Declaration) :
    Option Classifier :=
  match index.naming config.platform decl with
  | .named name => some ⟨config.effectivePackage, name⟩
  | .forward package name => some ⟨package, name⟩
  | .numbered | .unnamed => none

theorem naming_eq_numbered_iff (platform : Platform) {decl : Declaration} :
    index.naming platform decl = .numbered ↔ decl.isUnnamedStruct := by
  cases decl with
  | struct decl | enumeration decl | nativeClass decl | objcProtocol decl | objcClass decl =>
      unfold naming Declaration.isUnnamedStruct
      grind
  | _ => simp [naming, Declaration.isUnnamedStruct]

/-- What a run knows when these structs were asked about. -/
structure Knows (index : Index) (config : Config) (asked : List DeclId) (run : Run) : Prop where
  configured : run.config = config
  package : run.package = config.effectivePackage
  structs : run.anonymousStructs = asked
  distinct : asked.Nodup
  unnamed : ∀ id ∈ asked, ∃ decl, .struct decl ∈ index.declarations ∧ decl.name = none ∧
    decl.id = id
  settled : ∀ decl ∈ index.declarations, decl.isUnnamedStruct = false → ∀ id answer,
    decl.typeId? = some id → run.classifiers.get? id = some answer →
      answer = index.settledClassifier config decl
  numbered : ∀ decl, .struct decl ∈ index.declarations → decl.name = none → ∀ answer,
    run.classifiers.get? decl.id = some answer ↔ ∃ place, asked[place]? = some decl.id ∧
      answer = some ⟨config.effectivePackage, unnamedStructName place⟩

variable {asked : List DeclId}

theorem knows_start (index : Index) (config : Config) : index.Knows config [] (.start config) where
  configured := rfl
  package := rfl
  structs := rfl
  distinct := List.nodup_nil
  unnamed := nofun
  settled _ _ _ _ _ _ found := nomatch found
  numbered _ _ _ _ := ⟨nofun, fun ⟨_, found, _⟩ => nomatch found⟩

/-- What is decided for a declaration without a number changes no more than the table of
forward declarations. -/
theorem Knows.decide_settled (knows : index.Knows config asked run) {decl : Declaration}
    (id : DeclId) (settled : decl.isUnnamedStruct = false) :
    ∃ forward, (index.decideClassifier decl id).run run =
      (index.settledClassifier config decl, { run with forwardDeclarations := forward }) := by
  have configured := knows.configured
  subst configured
  have notNumbered : index.naming run.config.platform decl ≠ .numbered := by
    rw [Ne, naming_eq_numbered_iff, settled]
    exact Bool.false_ne_true
  rw [decideClassifier_run_naming, settledClassifier, ← knows.package]
  cases naming : index.naming run.config.platform decl with
  | named name => exact ⟨_, rfl⟩
  | forward package name => exact ⟨_, rfl⟩
  | numbered => exact absurd naming notNumbered
  | unnamed => exact ⟨_, rfl⟩

/-- An unnamed struct that has no number takes the next. -/
theorem Knows.decide_unnamed (knows : index.Knows config asked run) {decl : StructDecl}
    {id : DeclId} (unnamed : decl.name = none) (new : id ∉ asked) :
    (index.decideClassifier (.struct decl) id).run run =
      (some ⟨config.effectivePackage, unnamedStructName asked.length⟩,
        { run with anonymousStructs := asked ++ [id] }) := by
  have numbered : index.naming run.config.platform (.struct decl) = .numbered := by
    simp [naming, unnamed]
  rw [decideClassifier_run_naming, numbered]
  change (some (Classifier.mk run.package
      ("anonymousStruct" ++ toString ((Run.anonymousNumber id).run run).1)),
    ((Run.anonymousNumber id).run run).2) = _
  rw [Run.anonymousNumber_run, knows.structs, List.idxOf?_eq_none_iff.mpr new, knows.package]
  rfl

/-- A declaration that needs no number gets the classifier that was settled for it. -/
theorem Knows.name_settled (knows : index.Knows config asked run) (apart : index.KindsApart)
    {decl : Declaration} {id : DeclId} (declared : decl ∈ index.declarations)
    (typeId : decl.typeId? = some id) (unknown : run.classifiers.get? id = none)
    (settled : decl.isUnnamedStruct = false) :
    index.Knows config asked ((index.classifier decl).run run).2 := by
  obtain ⟨forward, decides⟩ := knows.decide_settled id settled
  rw [index.classifier_run_new typeId unknown, decides]
  refine ⟨knows.configured, knows.package, knows.structs, knows.distinct, knows.unnamed, ?_, ?_⟩
  · intro other otherDeclared otherSettled otherId answer otherTypeId found
    rw [SlotMap.get?_insert] at found
    split at found
    case isTrue here =>
      cases here
      cases apart.unique declared otherDeclared typeId otherTypeId
      exact (Option.some.inj found).symm
    case isFalse => exact knows.settled other otherDeclared otherSettled _ _ otherTypeId found
  · intro other otherDeclared otherUnnamed answer
    have different : id ≠ other.id := by
      rintro rfl
      cases apart.unique declared otherDeclared typeId rfl
      simp [Declaration.isUnnamedStruct, otherUnnamed] at settled
    rw [SlotMap.get?_insert, if_neg different]
    exact knows.numbered other otherDeclared otherUnnamed answer

/-- An unnamed struct gets the next number. -/
theorem Knows.name_unnamed (knows : index.Knows config asked run) (apart : index.KindsApart)
    {decl : StructDecl} (declared : .struct decl ∈ index.declarations)
    (unnamed : decl.name = none) (unknown : run.classifiers.get? decl.id = none) :
    decl.id ∉ asked ∧
      index.Knows config (asked ++ [decl.id]) ((index.classifier (.struct decl)).run run).2 := by
  have new : decl.id ∉ asked := by
    intro member
    obtain ⟨place, listed⟩ := List.mem_iff_getElem?.mp member
    have known := (knows.numbered decl declared unnamed _).mpr ⟨place, listed, rfl⟩
    cases unknown.symm.trans known
  refine ⟨new, ?_⟩
  rw [index.classifier_run_new rfl unknown, knows.decide_unnamed unnamed new]
  refine ⟨knows.configured, knows.package, rfl, ?_, ?_, ?_, ?_⟩
  · exact List.nodup_append.mpr ⟨knows.distinct, List.nodup_singleton _, by grind⟩
  · intro id member
    rcases List.mem_append.mp member with old | here
    · exact knows.unnamed id old
    · exact ⟨decl, declared, unnamed, (List.mem_singleton.mp here).symm⟩
  · intro other otherDeclared settled id answer typeId found
    have different : decl.id ≠ id := by
      rintro rfl
      cases apart.unique declared otherDeclared rfl typeId
      simp [Declaration.isUnnamedStruct, unnamed] at settled
    rw [SlotMap.get?_insert, if_neg different] at found
    exact knows.settled other otherDeclared settled id answer typeId found
  · intro other otherDeclared otherUnnamed answer
    rw [SlotMap.get?_insert]
    by_cases same : decl.id = other.id
    · -- The last place is that of the struct itself, which has no other.
      rw [if_pos same, ← same]
      constructor
      · rintro ⟨⟩
        exact ⟨asked.length, List.getElem?_concat_length, rfl⟩
      · rintro ⟨place, listed, rfl⟩
        rcases Nat.lt_trichotomy place asked.length with before | rfl | behind
        · rw [List.getElem?_append_left before] at listed
          exact absurd (List.mem_of_getElem? listed) new
        · rfl
        · rw [List.getElem?_eq_none (by simpa [Nat.succ_le_iff] using behind)] at listed
          cases listed
    · rw [if_neg same, knows.numbered other otherDeclared otherUnnamed answer]
      refine exists_congr fun place => and_congr_left fun _ => ?_
      grind

theorem Knows.ask (knows : index.Knows config asked run) (apart : index.KindsApart)
    {decl : Declaration} (declared : decl ∈ index.declarations) :
    index.Knows config (askedAbout asked decl) ((index.classifier decl).run run).2 := by
  have others (settled : decl.isUnnamedStruct = false) : askedAbout asked decl = asked := by
    cases decl with
    | struct decl =>
        have named : decl.name.isNone = false := settled
        simp [askedAbout, named]
    | _ => rfl
  cases typeId : decl.typeId? with
  | none =>
      rw [index.classifier_run_untyped typeId, others]
      · exact knows
      · cases decl <;> first | rfl | cases typeId
  | some id =>
      cases unnamed : decl.isUnnamedStruct with
      | false =>
          rw [others unnamed]
          cases known : run.classifiers.get? id with
          | some answer => rwa [index.classifier_run_known typeId known]
          | none => exact knows.name_settled apart declared typeId known unnamed
      | true =>
          cases decl with
          | struct decl =>
              cases typeId
              have unnamed : decl.name = none := Option.isNone_iff_eq_none.mp unnamed
              cases known : run.classifiers.get? decl.id with
              | some answer =>
                  obtain ⟨place, listed, -⟩ :=
                    (knows.numbered decl declared unnamed answer).mp known
                  rw [index.classifier_run_known rfl known]
                  simpa [askedAbout, List.mem_of_getElem? listed] using knows
              | none =>
                  obtain ⟨new, later⟩ := knows.name_unnamed apart declared unnamed known
                  simpa [askedAbout, unnamed, new] using later
          | _ => cases unnamed

/-- What holds at the start and after every step holds at every moment. -/
theorem Moment.knows (moment : index.Moment config asked run) (apart : index.KindsApart) :
    index.Knows config asked run := by
  induction moment with
  | start => exact knows_start index config
  | asked _ declared ih => exact ih.ask apart declared
  | numbered _ ih | recorded _ ih =>
      exact ⟨ih.configured, ih.package, ih.structs, ih.distinct, ih.unnamed, ih.settled, ih.numbered⟩

theorem moment_after (apart : index.KindsApart) (queries : List index.Query) :
    index.Moment config (index.after config queries).anonymousStructs
      (index.after config queries) := by
  obtain ⟨asked, moment⟩ :=
    (keeping_moment index config).foldl queries ⟨[], .start⟩
  exact (moment.knows apart).structs ▸ moment

/-- A declaration that needs no number is known by the name that was settled for it. -/
theorem Knows.names (knows : index.Knows config asked run) {decl : Declaration}
    (declared : decl ∈ index.declarations) (settled : decl.isUnnamedStruct = false)
    {classifier : Classifier} (named : run.Names decl classifier) :
    index.settledClassifier config decl = some classifier := by
  obtain ⟨id, typeId, known⟩ := named
  exact (knows.settled decl declared settled id _ typeId known).symm

/-- What is known of the names when a build is over. -/
theorem Builds.knows {queries : List index.Query} {outcomes : List Outcome} {last : Run}
    (builds : index.Builds (index.after config queries) outcomes last) (apart : index.KindsApart) :
    ∃ asked, index.Knows config asked last := by
  obtain ⟨asked, moment⟩ :=
    (keeping_moment index config).builds builds ⟨_, moment_after apart queries⟩
  exact ⟨asked, moment.knows apart⟩

/-- What a settled declaration is called, if it is asked about now. -/
theorem Moment.classifier (moment : index.Moment config asked run) (apart : index.KindsApart)
    {decl : Declaration} (declared : decl ∈ index.declarations)
    (settled : decl.isUnnamedStruct = false) :
    ((index.classifier decl).run run).1 = index.settledClassifier config decl := by
  cases typeId : decl.typeId? with
  | none =>
      rw [index.classifier_run_untyped typeId]
      cases decl <;> first | rfl | cases typeId
  | some id =>
      -- The answer is the one that is known when the question is over.
      have later := (moment.asked declared).knows apart
      exact later.settled decl declared settled id _ typeId (index.classifier_known typeId run)

/-- Names over the course of all runs with an index and a configuration. -/
structure NamesStay (index : Index) (config : Config) : Prop where
  /-- Asked twice about a declaration, a run gives one answer. -/
  classifier : ∀ earlier between decl declared,
    ((index.classifier decl).run
        (index.after config (earlier ++ .classifier decl declared :: between))).1 =
      ((index.classifier decl).run (index.after config earlier)).1
  /-- Asked twice about a type, a run gives one answer. -/
  representation : ∀ earlier between type,
    ((index.represent type).run
        (index.after config (earlier ++ .representation type :: between))).1 =
      ((index.represent type).run (index.after config earlier)).1
  /-- What was asked before matters to unnamed structs alone. -/
  settled : ∀ queries, ∀ decl ∈ index.declarations, decl.isUnnamedStruct = false →
    ((index.classifier decl).run (index.after config queries)).1 =
      index.settledClassifier config decl
  /-- A run lists the unnamed structs asked about, in the order of their first questions. -/
  moment : ∀ queries, index.Moment config (index.after config queries).anonymousStructs
    (index.after config queries)
  /-- An unnamed struct has the name of its place in that order, or none yet. -/
  numbered : ∀ asked run, index.Moment config asked run → asked.Nodup ∧
    (∀ id ∈ asked, ∃ decl, .struct decl ∈ index.declarations ∧ decl.name = none ∧ decl.id = id) ∧
    ∀ decl, .struct decl ∈ index.declarations → decl.name = none → ∀ classifier,
      run.Names (.struct decl) classifier ↔ ∃ place, asked[place]? = some decl.id ∧
        classifier = ⟨config.effectivePackage, unnamedStructName place⟩

/-- Names are stable, and unnamed structs are numbered without gaps. -/
theorem namesStay (apart : index.KindsApart) (config : Config) : index.NamesStay config where
  classifier earlier between decl declared := by
    have later := (keeping_le _).foldl between (le_refl
      ((index.classifier decl).run (index.after config earlier)).2)
    rw [after_append]
    have again := (index.finds_named decl).again _ _ later
    exact (congrArg Prod.fst again :)
  representation earlier between type := by
    have later := (keeping_le _).foldl between (le_refl
      ((index.represent type).run (index.after config earlier)).2)
    rw [after_append]
    have again := (index.finds_represent type).again _ _ later
    exact (congrArg Prod.fst again :)
  settled queries decl declared settled :=
    (moment_after apart queries).classifier apart declared settled
  moment queries := moment_after apart queries
  numbered asked run moment := by
    have knows := moment.knows apart
    refine ⟨knows.distinct, knows.unnamed, fun decl declared unnamed classifier => ?_⟩
    have known := knows.numbered decl declared unnamed (some classifier)
    simpa [Run.Names, Declaration.typeId?] using known

/-- Two structs without names. -/
def shapes : Index where
  structs := .ofList [
    { id := ⟨"square"⟩, layout := some { size := 8, align := 4 } },
    { id := ⟨"circle"⟩, layout := some { size := 4, align := 4 } }]

/-- A pointer to the second struct is asked about before both are built. -/
theorem namesStay_shapes :
    let queries : List shapes.Query :=
      [.representation (.pointerTo (.record "circle" ⟨"circle"⟩)), .build]
    let run := shapes.after {} queries
    shapes.KindsApart ∧ shapes.NamesStay {} ∧
      run.anonymousStructs = [⟨"circle"⟩, ⟨"square"⟩] ∧
      ∃ classifier, run.Names (.struct { id := ⟨"square"⟩, layout := some { size := 8, align := 4 } })
        classifier ∧ classifier.name = "anonymousStruct2" := by
  intro queries run
  have apart : shapes.KindsApart := by decide
  have stays : shapes.NamesStay {} := namesStay apart {}
  have asked : run.anonymousStructs = [⟨"circle"⟩, ⟨"square"⟩] := by decide +kernel
  obtain ⟨-, -, numbered⟩ := stays.numbered _ _ (stays.moment queries)
  refine ⟨apart, stays, asked, _, (numbered _ (List.mem_cons_self) rfl _).mpr ⟨1, ?_, rfl⟩, rfl⟩
  exact (congrArg (·[1]?) asked :)

end Index

end NativeBindings
