import NativeBindings.Proofs.Build.Kept
import NativeBindings.Proofs.Mapping.Settled

namespace NativeBindings

/-! # What each declaration contributes to a library

A library is put together from what its declarations contribute, in their order.  One
that is excluded contributes nothing, one that cannot be built a report, and any other
exactly the stubs of its kind.
-/

/-- What a declaration adds to a library. -/
structure Contribution where
  elements : List StubElement := []
  skipped : List Skipped := []

namespace Index

/-- No identity belongs to types of two kinds. -/
def KindsApart (index : Index) : Prop :=
  ∀ first ∈ index.declarations, ∀ second ∈ index.declarations,
    first.typeId?.isSome → first.typeId? = second.typeId? → first.kind = second.kind

instance (index : Index) : Decidable index.KindsApart :=
  inferInstanceAs (Decidable (∀ first ∈ index.declarations, ∀ second ∈ index.declarations,
    first.typeId?.isSome → first.typeId? = second.typeId? → first.kind = second.kind))

/-- A constant of an enumeration has an entry, under its name and with its value. -/
def EntryOf (index : Index) (config : Config) (decl : EnumDecl) (constant : EnumConstant)
    (name : String) (literal : Constant) : Prop :=
  name = constant.name ∧
    index.integralConstant? config.platform constant.value decl.base = some literal

/-- One property for each constant of an enumeration, in order. -/
def ConstantsOf (index : Index) (config : Config) (decl : EnumDecl)
    (stubs : List PropertyStub) : Prop :=
  List.Forall₂ (fun constant stub => ∃ literal, stub.kind = .constant literal ∧
    index.EntryOf config decl constant stub.name literal) decl.constants stubs

/-- One function for each method and one property for each property, in order. -/
structure MembersOf (container : DeclId) (methods : List ObjCMethod)
    (properties : List ObjCProperty) (functions : List FunctionStub)
    (stubs : List PropertyStub) : Prop where
  functions : functions.map (·.origin) = methods.map fun method =>
    .objcMethod container method.selector method.isClassMethod
  properties : stubs.map (·.name) = properties.map (·.name)

/-- The stubs of a declaration, by its kind. -/
inductive StubsOf (index : Index) (config : Config) : Declaration → List StubElement → Prop
  | forwardStruct {decl : StructDecl} {stub : ClassStub} : decl.layout = none →
      stub.kind = .forwardStruct → StubsOf index config (.struct decl) [.ofClass stub]
  | struct {decl : StructDecl} {stub : ClassStub} {layout} : decl.layout = some layout →
      stub.kind = .struct layout.size layout.align layout.isUnion →
      StubsOf index config (.struct decl) [.ofClass stub]
  | strictEnum {decl : EnumDecl} {stub : ClassStub} {entries base} :
      decl.name.isSome → config.isStrict decl → stub.kind = .enumeration entries base →
      List.Forall₂ (fun constant entry =>
        index.EntryOf config decl constant entry.name entry.constant) decl.constants entries →
      StubsOf index config (.enumeration decl) [.ofClass stub]
  | openEnum {decl : EnumDecl} {value memory constants} :
      decl.name.isSome → config.isStrict decl = false → index.ConstantsOf config decl constants →
      StubsOf index config (.enumeration decl)
        (.ofTypealias value :: .ofTypealias memory :: constants.map .ofProperty)
  | anonymousEnum {decl : EnumDecl} {constants} :
      decl.name = none → index.ConstantsOf config decl constants →
      StubsOf index config (.enumeration decl) (constants.map .ofProperty)
  | namesItself {decl : TypedefDecl} : index.namesItself decl →
      StubsOf index config (.typedef decl) []
  | typedef {decl : TypedefDecl} {value} : index.namesItself decl = false →
      StubsOf index config (.typedef decl) [.ofTypealias value]
  | keptTypedef {decl : TypedefDecl} {value memory} : index.namesItself decl = false →
      StubsOf index config (.typedef decl) [.ofTypealias value, .ofTypealias memory]
  | nativeClass {decl : ClassDecl} {stub : ClassStub} : stub.kind = .nativeClass →
      stub.functions.map (·.origin) =
        (List.range decl.methods.length).map (.method decl.id ·) →
      StubsOf index config (.nativeClass decl) [.ofClass stub]
  | objcProtocol {decl : ObjCProtocolDecl} {stub : ClassStub} : stub.kind = .objcProtocol →
      MembersOf decl.id decl.methods decl.properties stub.functions stub.properties →
      StubsOf index config (.objcProtocol decl) [.ofClass stub]
  | objcClass {decl : ObjCClassDecl} {stub : ClassStub} : stub.kind = .objcClass →
      MembersOf decl.id decl.methods decl.properties stub.functions stub.properties →
      StubsOf index config (.objcClass decl) [.ofClass stub]
  | objcCategory {decl : ObjCCategoryDecl} {id name functions properties} :
      MembersOf decl.id decl.methods decl.properties functions properties →
      StubsOf index config (.objcCategory decl) [
        .ofGroup { id, name, members := { (∅ : StubTree) with functions, properties } }]
  | global {decl : GlobalDecl} {stub : PropertyStub} : stub.name = decl.name →
      StubsOf index config (.global decl) [.ofProperty stub]
  | wrappedMacro {decl : WrappedMacro} {stub : PropertyStub} : stub.name = decl.name →
      StubsOf index config (.wrappedMacro decl) [.ofProperty stub]
  | function {decl : FunctionDecl} {stub : FunctionStub} : stub.origin = .function decl.id →
      StubsOf index config (.function decl) [.ofFunction stub]
  | noConstant {decl : MacroConstant} : StubsOf index config (.macroConstant decl) []
  | constant {decl : MacroConstant} {stub : PropertyStub} {value} : stub.name = decl.name →
      stub.kind = .constant value → StubsOf index config (.macroConstant decl) [.ofProperty stub]

/-- A declaration contributes nothing, a report, or its stubs. -/
inductive Contributes (index : Index) (config : Config) (decl : Declaration) :
    Contribution → Prop
  | excluded : config.excludes decl → Contributes index config decl {}
  | skipped {reason} : config.excludes decl = false →
      Contributes index config decl { skipped := [⟨decl.kind, decl.displayName, reason⟩] }
  | built {elements} : config.excludes decl = false → index.StubsOf config decl elements →
      Contributes index config decl { elements }

/-- A run knows enumerations by a name if they have one. -/
def NamesEnums (index : Index) (run : Run) : Prop :=
  ∀ decl : EnumDecl, .enumeration decl ∈ index.declarations →
    ∀ answer, run.classifiers.get? decl.id = some answer → answer.isSome = decl.name.isSome

variable {index : Index} {run after : Run}

theorem get?_of_mem_declarations_enumeration {decl : EnumDecl}
    (declared : .enumeration decl ∈ index.declarations) :
    index.enums.get? decl.id = some decl :=
  DeclMap.get?_of_mem_values (mem_declarations_iff.mp declared)

/-- Only the enumeration itself can decide what it is known by. -/
theorem KindsApart.enumeration (apart : index.KindsApart) {decl : EnumDecl} {other : Declaration}
    (declared : .enumeration decl ∈ index.declarations) (member : other ∈ index.declarations)
    (typeId : other.typeId? = some decl.id) : other = .enumeration decl := by
  have kind := apart _ declared other member rfl typeId.symm
  cases other with
  | enumeration other =>
      have same : other.id = decl.id := Option.some.inj typeId
      have found := get?_of_mem_declarations_enumeration member
      rw [same, get?_of_mem_declarations_enumeration declared] at found
      rw [Option.some.inj found]
  | _ => cases kind

theorem keeping_namesEnums (apart : index.KindsApart) : index.Keeping index.NamesEnums where
  classifier other member run kept decl declared answer found := by
    rcases get?_classifier found with before | ⟨typeId, decided⟩
    · exact kept decl declared answer before
    · rw [apart.enumeration declared member typeId] at decided
      exact decided
  freshStub _ kept := kept
  recordStrictness _ _ _ kept := kept

theorem namesEnums_start (index : Index) (config : Config) :
    index.NamesEnums (.start config) := by
  intro decl _ answer found
  cases found

/-- Only a declaration of another kind could leave a typedef without a name. -/
theorem keeping_namesTypedefs (apart : index.KindsApart) :
    index.Keeping index.NamesTypedefs where
  classifier other member run kept id decl found unnamed := by
    rcases get?_classifier unnamed with before | ⟨typeId, decided⟩
    · exact kept id decl found before
    · have identity : decl.id = id := DeclMap.id_of_get? found
      have kind := apart _ (mem_declarations_typedef found) other member rfl
        ((congrArg some identity).trans typeId.symm)
      cases other with
      | typedef => cases decided
      | _ => cases kind
  freshStub _ kept := kept
  recordStrictness _ _ _ kept := kept

theorem forall₂_of_mapM {α β : Type} {find : α → Option β} {items : List α} {results : List β}
    (found : items.mapM find = some results) :
    List.Forall₂ (fun item result => find item = some result) items results := by
  induction items generalizing results with
  | nil =>
      cases found
      exact .nil
  | cons item rest ih =>
      simp only [List.mapM_cons, Option.bind_eq_bind, Option.bind_eq_some_iff] at found
      obtain ⟨first, here, others, later, same⟩ := found
      cases same
      exact .cons here (ih later)

theorem entryOf_of_enumEntries {decl : EnumDecl} {entries : List EnumEntry} {config : Config}
    (listed : index.enumEntries config.platform decl = some entries) :
    List.Forall₂ (fun constant entry =>
      index.EntryOf config decl constant entry.name entry.constant) decl.constants entries := by
  refine (forall₂_of_mapM listed).imp fun constant entry found => ?_
  obtain ⟨literal, fits, rfl⟩ := Option.map_eq_some_iff.mp found
  exact ⟨rfl, fits⟩

theorem constantsOf_of_given {decl : EnumDecl} {entries : List EnumEntry} {config : Config}
    {type : TargetType} {constants : List StubElement}
    (listed : index.enumEntries config.platform decl = some entries)
    (given : List.Forall₂ (ConstantGiven type) entries constants) :
    ∃ stubs, constants = stubs.map .ofProperty ∧ index.ConstantsOf config decl stubs := by
  have entriesOf := entryOf_of_enumEntries listed
  unfold ConstantsOf
  generalize decl.constants = declared at entriesOf
  clear listed
  induction given generalizing declared with
  | nil =>
      cases entriesOf
      exact ⟨[], rfl, .nil⟩
  | cons head _ ih =>
      obtain ⟨id, rfl⟩ := head
      cases entriesOf with
      | cons entry others =>
          obtain ⟨stubs, rfl, all⟩ := ih _ others
          exact ⟨_ :: stubs, rfl, .cons ⟨_, rfl, entry⟩ all⟩

theorem MembersGiven.membersOf {container : DeclId} {receiver : Option TargetType}
    {methods : List ObjCMethod} {properties : List ObjCProperty}
    {functions : List FunctionStub} {stubs : List PropertyStub}
    (given : index.MembersGiven run container receiver methods properties functions stubs) :
    MembersOf container methods properties functions stubs where
  functions := map_eq_of_forall₂ (given.functions.imp fun _ _ method => method.origin)
  properties := map_eq_of_forall₂ (given.properties.imp fun _ _ property => property.name)

/-- What a declaration gave are the stubs of its kind, once it is clear which enumerations
have names. -/
theorem Gives.stubsOf {decl : Declaration} {built : Built} (gives : index.Gives run decl built)
    (declared : decl ∈ index.declarations) (named : index.NamesEnums run) :
    index.StubsOf run.config decl built.elements := by
  have hasName {decl : EnumDecl} {classifier : Classifier}
      (member : .enumeration decl ∈ index.declarations)
      (known : run.Names (.enumeration decl) classifier) : decl.name.isSome := by
    obtain ⟨id, typeId, found⟩ := known
    cases typeId
    exact (named decl member _ found).symm
  cases gives with
  | forwardStruct isForward => exact .forwardStruct isForward rfl
  | struct layout => exact .struct layout rfl
  | anonymousEnum unknown _ listed constants =>
      have unnamed := named _ declared _ unknown
      obtain ⟨stubs, rfl, all⟩ := constantsOf_of_given listed constants
      exact .anonymousEnum (by simpa using unnamed.symm) all
  | strictEnum known strict _ listed =>
      exact .strictEnum (hasName declared known) strict rfl (entryOf_of_enumEntries listed)
  | openEnum known isOpen _ listed constants =>
      obtain ⟨stubs, rfl, all⟩ := constantsOf_of_given listed constants
      exact .openEnum (hasName declared known) isOpen all
  | namesItself self => exact .namesItself self
  | typedef other => exact .typedef other
  | keptTypedef _ _ keeps =>
      refine .keptTypedef (Bool.eq_false_iff.mpr fun self => ?_)
      simp [keepsName, self] at keeps
  | nativeClass _ methods =>
      refine .nativeClass rfl ?_
      rw [map_eq_of_forall₂ (methods.imp fun _ _ given => given.origin), List.range_eq_range',
        ← List.zipIdx_map_snd, List.map_map]
      rfl
  | objcProtocol _ _ members => exact .objcProtocol rfl members.membersOf
  | objcClass _ _ _ members => exact .objcClass rfl members.membersOf
  | objcCategory _ members => exact .objcCategory members.membersOf
  | readOnlyGlobal | «global» => exact .global rfl
  | function => exact .function rfl
  | noConstant => exact .noConstant
  | stringConstant | constant => exact .constant rfl rfl
  | wrappedMacro => exact .wrappedMacro rfl

theorem foldl_push_eq (elements : List StubElement) (tree : StubTree) :
    elements.foldl StubTree.push tree = {
      classes := tree.classes ++ elements.filterMap (·.class?)
      functions := tree.functions ++ elements.filterMap (·.function?)
      properties := tree.properties ++ elements.filterMap (·.property?)
      typealiases := tree.typealiases ++ elements.filterMap (·.typealias?)
      groups := tree.groups ++ elements.filterMap (·.group?) } := by
  induction elements generalizing tree with
  | nil =>
      cases tree
      simp
  | cons element rest ih =>
      rw [List.foldl_cons, ih]
      cases element <;>
        simp [StubTree.push, StubElement.class?, StubElement.function?, StubElement.property?,
          StubElement.typealias?, StubElement.group?]

theorem stubs_foldl_take (outcomes : List Outcome) (library : Library) :
    (outcomes.foldl Library.take library).stubs =
      ((outcomes.filterMap Outcome.built?).flatMap (·.elements)).foldl StubTree.push
        library.stubs := by
  induction outcomes generalizing library with
  | nil => rfl
  | cons outcome rest ih =>
      obtain ⟨decl, result⟩ := outcome
      rw [List.foldl_cons, ih]
      cases result with
      | ok built => simp [Library.take, Library.add, Outcome.built?, List.foldl_append]
      | error error => rfl

/-- Each declaration has its contribution, and the outcomes are those that were attempted. -/
theorem exists_contributions {config : Config} {decls : List Declaration}
    {outcomes : List Outcome} (listed : outcomes.map (·.1) = decls.filter (!config.excludes ·))
    (stubs : ∀ decl built, (decl, .ok built) ∈ outcomes →
      index.StubsOf config decl built.elements) :
    ∃ contributions : List Contribution,
      List.Forall₂ (index.Contributes config) decls contributions ∧
        contributions.flatMap (·.elements) =
          (outcomes.filterMap Outcome.built?).flatMap (·.elements) ∧
        contributions.flatMap (·.skipped) = outcomes.filterMap Outcome.skipped? := by
  induction decls generalizing outcomes with
  | nil =>
      cases List.map_eq_nil_iff.mp listed
      exact ⟨[], .nil, rfl, rfl⟩
  | cons decl rest ih =>
      cases excluded : config.excludes decl with
      | true =>
          rw [List.filter_cons_of_neg (by simp [excluded])] at listed
          obtain ⟨contributions, all, elements, skipped⟩ := ih listed stubs
          exact ⟨{} :: contributions, .cons (.excluded excluded) all, elements, skipped⟩
      | false =>
          rw [List.filter_cons_of_pos (by simp [excluded])] at listed
          obtain ⟨⟨other, result⟩, others, rfl, rfl, later⟩ := List.map_eq_cons_iff.mp listed
          obtain ⟨contributions, all, elements, skipped⟩ :=
            ih later fun decl built member => stubs decl built (List.mem_cons_of_mem _ member)
          cases result with
          | ok built =>
              have own := stubs other built List.mem_cons_self
              refine ⟨{ elements := built.elements } :: contributions,
                .cons (.built excluded own) all, ?_, ?_⟩
              · rw [List.flatMap_cons, elements]
                rfl
              · rw [List.flatMap_cons, skipped]
                rfl
          | error error =>
              refine ⟨{ skipped := [⟨other.kind, other.displayName, error.report⟩] } ::
                contributions, .cons (.skipped excluded) all, ?_, ?_⟩
              · rw [List.flatMap_cons, elements]
                rfl
              · rw [List.flatMap_cons, skipped]
                rfl

/-- Where no identity belongs to types of two kinds, a build on a fresh run is made of one
contribution for each declaration of the index, in order, and of nothing else. -/
theorem contributions_of_build (index : Index) (config : Config) (apart : index.KindsApart) :
    ∃ library after, ∃ contributions : List Contribution,
      index.build.run (.start config) = (.ok library, after) ∧
        List.Forall₂ (index.Contributes config) index.declarations contributions ∧
        (let elements := contributions.flatMap (·.elements)
         library.stubs = {
          classes := elements.filterMap (·.class?)
          functions := elements.filterMap (·.function?)
          properties := elements.filterMap (·.property?)
          typealiases := elements.filterMap (·.typealias?)
          groups := elements.filterMap (·.group?) }) ∧
        library.skipped = contributions.flatMap (·.skipped) := by
  obtain ⟨outcomes, after, builds⟩ := index.exists_builds (.start config)
  have named := (keeping_namesEnums apart).builds builds (index.namesEnums_start config)
  obtain ⟨contributions, all, elements, skipped⟩ := exists_contributions builds.listed
    fun decl built member => builds.le.config ▸
      (builds.gives member).stubsOf (builds.mem_declarations member) named
  refine ⟨Library.ofOutcomes outcomes, after, contributions, builds.build_run, all, ?_, ?_⟩
  · have pushed := stubs_foldl_take outcomes {}
    rw [foldl_push_eq, ← elements] at pushed
    exact pushed
  · rw [Library.skipped_ofOutcomes, skipped]

/-- A struct, enumerations with and without a name, a typedef of the struct, and three
functions, of which the last has no representable result. -/
def canvas : Index where
  structs := .ofList [
    { id := ⟨"point"⟩, name := some "Point", layout := some { size := 8, align := 4 } }]
  enums := .ofList [
    { id := ⟨"tone"⟩, name := some "Tone", base := .uint, constants := [⟨"DARK", 0, false⟩] },
    { id := ⟨"limits"⟩, base := .int, constants := [⟨"WIDTH", 640, true⟩, ⟨"HEIGHT", 480, true⟩] }]
  typedefs := .ofList [⟨⟨"place"⟩, "Place", .record "struct Point" ⟨"point"⟩⟩]
  functions := .ofList [
    .ofName "clear" .void [],
    .ofName "abort" .void [],
    .ofName "blend" ⟨"complex", false, .other "complex"⟩ []]

theorem contributions_of_build_canvas :
    let config := { excludedFunctions := SortedSet.ofMembers ["abort"] }
    canvas.KindsApart ∧ ∃ library after, ∃ contributions : List Contribution,
      canvas.build.run (.start config) = (.ok library, after) ∧
        List.Forall₂ (canvas.Contributes config) canvas.declarations contributions ∧
        library.skipped = contributions.flatMap (·.skipped) ∧
        library.skipped.map (·.name) = ["blend"] ∧ library.stubs.classes.length = 2 ∧
        library.stubs.properties.map (·.name) = ["WIDTH", "HEIGHT"] ∧
        library.stubs.typealiases.length = 1 ∧
        library.stubs.functions.map (·.name) = ["clear"] := by
  intro config
  obtain ⟨library, after, contributions, built, all, -, skipped⟩ :=
    contributions_of_build canvas config (by decide)
  have computed : (match (canvas.build.run (.start config)).1 with
      | .ok library =>
          library.skipped.map (·.name) = ["blend"] && library.stubs.classes.length = 2 &&
          library.stubs.properties.map (·.name) = ["WIDTH", "HEIGHT"] &&
          library.stubs.typealiases.length = 1 &&
          library.stubs.functions.map (·.name) = ["clear"]
      | .error _ => false) = true := by decide +kernel
  rw [built] at computed
  simp only [Bool.and_eq_true, decide_eq_true_eq] at computed
  obtain ⟨⟨⟨⟨names, classes⟩, properties⟩, typealiases⟩, functions⟩ := computed
  exact ⟨by decide, library, after, contributions, built, all, skipped, names, classes,
    properties, typealiases, functions⟩

end Index

end NativeBindings
