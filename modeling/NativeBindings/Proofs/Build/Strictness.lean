import NativeBindings.Proofs.Build.Constants
import NativeBindings.Proofs.Build.Naming
import NativeBindings.Proofs.Build.Recorded
import NativeBindings.Proofs.Build.Table

namespace NativeBindings

/-! # Strict and other enumerations in a build

Whether an enumeration is strict is asked in four places: where its values are used, where
it is built, for the bridge table and for the manifest.  All of them agree.
-/

/-- The classes of a tree that are enumerations of this name. -/
def StubTree.enumerationsNamed (tree : StubTree) (own : Classifier) : List ClassStub :=
  tree.allClasses.filter fun stub => stub.kind.isEnumeration && stub.classifier = own

namespace Index

variable {index : Index} {run after : Run} {outcomes : List Outcome} {config : Config}

/-- The classifier under which an enumeration of this name is declared. -/
def enumerationClassifier (config : Config) (name : String) : Classifier :=
  ⟨config.effectivePackage, simpleName name⟩

theorem settledClassifier_enumeration {decl : EnumDecl} {name : String}
    (isName : decl.name = some name) : index.settledClassifier config (.enumeration decl) =
      some (enumerationClassifier config name) := by
  simp [settledClassifier, naming, isName, enumerationClassifier]

/-- An enumeration that a run knows by a classifier has a name, and is declared under it. -/
theorem Knows.enumeration {asked : List DeclId} (knows : index.Knows config asked run)
    {decl : EnumDecl} (declared : .enumeration decl ∈ index.declarations) {own : Classifier}
    (named : run.Names (.enumeration decl) own) :
    ∃ name, decl.name = some name ∧ own = enumerationClassifier config name := by
  have settled := knows.names declared rfl named
  cases isName : decl.name with
  | none => simp [settledClassifier, naming, isName] at settled
  | some name =>
      rw [settledClassifier_enumeration isName] at settled
      exact ⟨name, rfl, (Option.some.inj settled).symm⟩

theorem nodup_enumerations (index : Index) :
    (index.enums.values.map Declaration.enumeration).Nodup := by
  exact List.Nodup.map (fun _ _ => Declaration.enumeration.inj)
    (.of_map EnumDecl.id index.enums.nodup_ids)

theorem filter_wanted_enumerations (index : Index) (config : Config) :
    (index.wanted config).filter (·.kind = .enumeration) =
      index.enums.values.map .enumeration := by
  rw [wanted_eq, declarations_types]
  simp [leafDeclarations, List.filter_map, Function.comp_def, Declaration.kind]

/-- An enumeration is attempted once. -/
theorem Builds.enumeration_once (builds : index.Builds run outcomes after) {decl : EnumDecl}
    {result : Except BuildError Built} {front back : List Outcome}
    (split : outcomes = front ++ (.enumeration decl, result) :: back) :
    ∀ outcome ∈ front ++ back, outcome.1 ≠ .enumeration decl := by
  have listed := congrArg (List.filter (·.kind = .enumeration)) builds.listed
  rw [filter_wanted_enumerations, split, List.map_append, List.map_cons, List.filter_append,
    List.filter_cons_of_pos (by rfl)] at listed
  have nodup := listed ▸ index.nodup_enumerations
  rw [List.nodup_middle, List.nodup_cons, ← List.filter_append, ← List.map_append] at nodup
  intro outcome member same
  exact nodup.1 (List.mem_filter.mpr ⟨List.mem_map.mpr ⟨_, member, same⟩, rfl⟩)

theorem Builds.not_built_of_error (builds : index.Builds run outcomes after) {decl : EnumDecl}
    {error : BuildError} (listed : (.enumeration decl, .error error) ∈ outcomes) {built : Built} :
    (.enumeration decl, .ok built) ∉ outcomes := by
  intro again
  obtain ⟨front, back, split⟩ := List.append_of_mem listed
  have other : (.enumeration decl, .ok built) ∈ front ++ back := by
    rw [split] at again
    simpa using again
  exact builds.enumeration_once split _ other rfl

/-- Only enumerations give classes of enumerations, each under its own name. -/
theorem Gives.enumeration {decl : Declaration} {built : Built} (gives : index.Gives run decl built)
    {stub : ClassStub} (member : stub ∈ built.classes) (closed : stub.kind.isEnumeration) :
    ∃ enumeration, decl = .enumeration enumeration ∧ run.Names decl stub.classifier := by
  cases gives with
  | strictEnum named =>
      cases List.mem_singleton.mp member
      exact ⟨_, rfl, named⟩
  | anonymousEnum _ _ _ constants =>
      rw [Built.classes, classes_constants constants] at member
      cases member
  | openEnum _ _ _ _ constants =>
      rw [Built.classes, List.flatMap_append, classes_constants constants] at member
      simp [StubElement.classes] at member
  | forwardStruct | struct | nativeClass | objcProtocol | objcClass =>
      cases List.mem_singleton.mp member
      cases closed
  | _ => simp [Built.classes, StubElement.classes] at member

section Build

variable {asked : List DeclId} (builds : index.Builds run outcomes after)
  (knows : index.Knows config asked after) (distinct : index.NamedEnumsApart)

include builds knows distinct

/-- Classes of enumerations that have the name of one are its own. -/
theorem Builds.enumeration_of_class {decl : EnumDecl} {name : String}
    (declared : .enumeration decl ∈ index.declarations) (isName : decl.name = some name)
    {outcome : Outcome} (listed : outcome ∈ outcomes) {built : Built}
    (isBuilt : outcome.built? = some built) {stub : ClassStub} (member : stub ∈ built.classes)
    (closed : stub.kind.isEnumeration) :
    stub.classifier = enumerationClassifier config name ↔ outcome.1 = .enumeration decl := by
  obtain ⟨other, result⟩ := outcome
  cases result with
  | error error => cases isBuilt
  | ok given =>
      cases isBuilt
      have otherDeclared := builds.mem_declarations listed
      obtain ⟨enumeration, rfl, named⟩ := (builds.gives listed).enumeration member closed
      obtain ⟨otherName, isOther, own⟩ := knows.enumeration otherDeclared named
      rw [own]
      constructor
      · intro same
        rw [distinct.unique otherDeclared declared isOther isName (congrArg Classifier.name same)]
      · rintro ⟨⟩
        rw [Option.some.inj (isOther.symm.trans isName)]

/-- The classes of enumerations that have the name of one are those that it gave itself. -/
theorem Builds.enumerationsNamed {decl : EnumDecl} {name : String} (isName : decl.name = some name)
    {built : Built} (listed : (.enumeration decl, .ok built) ∈ outcomes) :
    ((Library.ofOutcomes outcomes).stubs.enumerationsNamed
      (enumerationClassifier config name)).Perm (built.classes.filter (·.kind.isEnumeration)) := by
  have declared := builds.mem_declarations listed
  obtain ⟨front, back, split⟩ := List.append_of_mem listed
  have once := builds.enumeration_once split
  have own {outcome : Outcome} (member : outcome ∈ outcomes) {given : Built}
      (isBuilt : outcome.built? = some given) {stub : ClassStub} (inside : stub ∈ given.classes)
      (closed : stub.kind.isEnumeration) :=
    builds.enumeration_of_class knows distinct declared isName member isBuilt inside closed
  -- Nothing that came before or after gave such a class.
  have others (part : List Outcome) (within : ∀ outcome ∈ part, outcome ∈ front ++ back) :
      ((part.filterMap Outcome.built?).flatMap Built.classes).filter (fun stub =>
        stub.kind.isEnumeration && stub.classifier = enumerationClassifier config name) = [] := by
    refine List.filter_eq_nil_iff.mpr fun stub inside matched => ?_
    obtain ⟨given, isGiven, member⟩ := List.mem_flatMap.mp inside
    obtain ⟨outcome, inPart, isBuilt⟩ := List.mem_filterMap.mp isGiven
    rw [Bool.and_eq_true, decide_eq_true_eq] at matched
    have apart := within outcome inPart
    have among : outcome ∈ outcomes := by
      rw [split]
      grind
    exact once outcome apart ((own among isBuilt member matched.1).mp matched.2)
  have kept : built.classes.filter (fun stub =>
        stub.kind.isEnumeration && stub.classifier = enumerationClassifier config name) =
      built.classes.filter (·.kind.isEnumeration) := by
    refine List.filter_congr fun stub inside => ?_
    cases closed : stub.kind.isEnumeration with
    | false => rfl
    | true => simpa using (own listed rfl inside closed).mpr rfl
  refine ((Library.allClasses_ofOutcomes outcomes).filter _).trans (.of_eq ?_)
  have here : Outcome.built? (.enumeration decl, .ok built) = some built := rfl
  rw [split, List.filterMap_append, List.filterMap_cons_some here, List.flatMap_append,
    List.flatMap_cons, List.filter_append, List.filter_append, kept,
    others front fun _ member => List.mem_append_left _ member,
    others back fun _ member => List.mem_append_right _ member, List.nil_append, List.append_nil]

end Build

/-- What the bridge table says of an enumeration is how its values are represented. -/
theorem leaves_enumerations {decl : EnumDecl} (declared : .enumeration decl ∈ index.declarations) :
    (index.buildEnum decl).built.Leaves run fun after built => ∀ id representation,
      built.table.enumerations.get? id = some representation →
        ∃ own, after.Names (.enumeration decl) own ∧ representation = .closed own := by
  rw [buildEnum_eq declared]
  refine .bind (leaves_required _) fun base mid _ _ => .get ?_
  dsimp only
  split
  · exact .throw _
  rename_i entries _
  refine .bind (.lift (leaves_classifier _)) fun answer asked _ found => ?_
  obtain ⟨-, named⟩ := found
  have empty (id : StubId) : (∅ : BridgeTable).enumerations.get? id = none := rfl
  cases answer with
  | none =>
      refine .bind (.lift (leaves_constantProperties _ _)) fun _ _ _ _ => .pure ?_
      simp [empty]
  | some classifier =>
      have finish {later : Run} (le : asked ≤ later) :
          Attempt.Leaves (
            if mid.config.isStrict decl then liftM (closedBuilt classifier base entries)
            else Attempt.untabled (buildOpen classifier base entries)) later fun after built =>
              ∀ id representation, built.table.enumerations.get? id = some representation →
                ∃ own, after.Names (.enumeration decl) own ∧ representation = .closed own := by
        split
        · refine .lift (.bind .freshStub fun id after beyond _ => .pure ?_)
          intro other representation found
          have named := (named _ rfl).mono (le_trans le beyond)
          exact ⟨classifier, named, (get?_singleton.mp found).2.symm⟩
        · refine .untabled (.lift (.bind .freshStub fun _ _ _ _ => .bind .freshStub fun _ _ _ _ =>
            .bind (leaves_constantProperties _ _) fun _ _ _ _ => .pure ?_))
          simp [empty]
      dsimp only
      split
      · exact .bind (.lift (.ofGrows (Run.grows_recordStrictness _ _)))
          fun _ later le _ => finish le
      · exact finish le_rfl

theorem Builds.closed_of_table (builds : index.Builds run outcomes after) {decl : EnumDecl}
    {built : Built} (listed : (.enumeration decl, .ok built) ∈ outcomes) {id : StubId}
    {representation : Representation}
    (found : built.table.enumerations.get? id = some representation) :
    ∃ own, after.Names (.enumeration decl) own ∧ representation = .closed own := by
  obtain ⟨_, last, _, le, given⟩ := builds.left listed fun _ =>
    leaves_enumerations (builds.mem_declarations listed)
  obtain ⟨own, named, same⟩ := given id representation found
  exact ⟨own, named.mono le, same⟩

/-- What there is of an enumeration with a name once it is built, by whether it is strict. -/
inductive Made (index : Index) (library : Library) (after : Run) (decl : EnumDecl)
    (own : Classifier) : Bool → Prop
  /-- It has a class of its own, and all that use it or reach it go by that class. -/
  | closed {stub} : library.stubs.enumerationsNamed own = [stub] →
      library.table.enumerations.get? stub.id = some (.closed own) →
      (∀ spelling isConst,
        index.Answers after ⟨spelling, isConst, .enumeration decl.id⟩ (.closed own)) →
      Made index library after decl own true
  /-- It has aliases of its base type, and is represented by them. -/
  | aliased {base value memory} : library.stubs.enumerationsNamed own = [] →
      index.Answers after decl.base base →
      ⟨value, own, base.target⟩ ∈ library.stubs.typealiases →
      ⟨memory, own.variableOf, base.pointed⟩ ∈ library.stubs.typealiases →
      (∀ spelling isConst, index.Answers after ⟨spelling, isConst, .enumeration decl.id⟩ {
        target := .ofClassifier own
        pointed := .ofClassifier own.variableOf
        marshalling := .byValue
        info := base.info }) →
      Made index library after decl own false

section Build

variable {asked : List DeclId} (builds : index.Builds run outcomes after)
  (knows : index.Knows config asked after) (distinct : index.NamedEnumsApart)

include builds knows distinct

theorem Builds.made (acyclic : index.Acyclic) {decl : EnumDecl} {name : String}
    (isName : decl.name = some name) {built : Built}
    (listed : (.enumeration decl, .ok built) ∈ outcomes) :
    index.Made (Library.ofOutcomes outcomes) after decl (enumerationClassifier config name)
      (config.isStrict decl) := by
  have declared := builds.mem_declarations listed
  have found := get?_of_mem_declarations_enumeration declared
  have classes := builds.enumerationsNamed knows distinct isName listed
  have isNamed : decl.name.isNone = false := by rw [isName]; rfl
  have own {classifier : Classifier} (named : after.Names (.enumeration decl) classifier) :
      enumerationClassifier config name = classifier := by
    obtain ⟨other, isOther, same⟩ := knows.enumeration declared named
    rw [same, Option.some.inj (isOther.symm.trans isName)]
  have config := knows.configured
  subst config
  cases builds.gives listed with
  | anonymousEnum unknown =>
      have settled := knows.settled _ declared rfl decl.id _ rfl unknown
      rw [settledClassifier_enumeration isName] at settled
      cases settled
  | @strictEnum _ id _ base entries representation named strict =>
      cases own named
      have entry : (BridgeTable.addEnumeration ∅ id representation).enumerations.get? id =
          some representation := get?_singleton.mpr ⟨rfl, rfl⟩
      obtain ⟨other, again, rfl⟩ := builds.closed_of_table listed entry
      cases named.unique again
      have inTable := builds.get?_enumerations.mpr
        ⟨_, List.mem_filterMap.mpr ⟨_, listed, rfl⟩, entry⟩
      rw [strict]
      exact .closed (List.perm_singleton.mp classes) inTable (answers_closed found named strict)
  | openEnum named isOpen answers _ constants =>
      cases own named
      rw [Built.classes, List.flatMap_append, classes_constants constants] at classes
      rw [isOpen]
      refine .aliased (List.perm_nil.mp classes) answers
        (mem_typealiases_of_built listed List.mem_cons_self)
        (mem_typealiases_of_built listed (List.mem_cons_of_mem _ List.mem_cons_self))
        fun spelling isConst => ?_
      exact (answers_iff acyclic).mpr (.openEnum found isNamed named isOpen answers.represented)

end Build

/-- Everything that a build leaves behind goes by the strictness that the configuration gives
an enumeration. -/
structure StrictnessAgrees (index : Index) (config : Config) (outcomes : List Outcome)
    (after : Run) : Prop where
  attempted : ∀ decl ∈ index.enums.values, ∃ result, (.enumeration decl, result) ∈ outcomes
  /-- One that fails is reported, and is not built in another attempt. -/
  failed : ∀ decl error, (.enumeration decl, .error error) ∈ outcomes →
    ⟨.enumeration, (Declaration.enumeration decl).displayName, error.report⟩ ∈
        (Library.ofOutcomes outcomes).skipped ∧
      ∀ built, (.enumeration decl, .ok built) ∉ outcomes
  /-- The tree and the bridge table have what its strictness says, and so it is represented. -/
  made : ∀ decl name built, decl.name = some name → (.enumeration decl, .ok built) ∈ outcomes →
    index.Made (Library.ofOutcomes outcomes) after decl (enumerationClassifier config name)
      (config.isStrict decl)
  /-- Without a name it is represented by its base, whatever the configuration says. -/
  unnamed : ∀ decl ∈ index.enums.values, decl.name = none → ∀ spelling isConst,
    index.represent ⟨spelling, isConst, .enumeration decl.id⟩ = index.represent decl.base
  /-- One that is built is listed with those of its strictness, and with no others. -/
  listed : ∀ decl ∈ index.enums.values, ∀ name, decl.name = some name → ∀ strict,
    name ∈ after.enumerationNames strict ↔
      config.isStrict decl = strict ∧ ∃ built, (.enumeration decl, .ok built) ∈ outcomes
  /-- Only names of enumerations that are built are listed. -/
  onlyBuilt : ∀ strict, ∀ name ∈ after.enumerationNames strict, ∃ decl ∈ index.enums.values,
    decl.name = some name ∧ ∃ built, (.enumeration decl, .ok built) ∈ outcomes
  once : ∀ strict, (after.enumerationNames strict).Nodup
  manifest : ∀ strict, (if strict then "strictEnums" else "nonStrictEnums",
    String.intercalate " " (after.enumerationNames strict)) ∈ after.manifest
  /-- The lists can be read back where no name has a space in it. -/
  readable : (∀ decl ∈ index.enums.values, ∀ name, decl.name = some name → ' ' ∉ name.toList) →
    ∀ strict, wordsOf (String.intercalate " " (after.enumerationNames strict)) =
      (after.enumerationNames strict).filter (· ≠ "")

theorem represent_unnamed (acyclic : index.Acyclic) {decl : EnumDecl}
    (found : index.enums.get? decl.id = some decl) (unnamed : decl.name = none)
    (spelling : String) (isConst : Bool) :
    index.represent ⟨spelling, isConst, .enumeration decl.id⟩ = index.represent decl.base := by
  rw [represent_eq acyclic, representShape, representEnumeration_found _ _ found,
    if_pos (by rw [unnamed]; rfl)]

theorem Builds.strictnessAgrees (builds : index.Builds (.start config) outcomes after)
    (acyclic : index.Acyclic) (apart : index.KindsApart) (distinct : index.NamedEnumsApart) :
    index.StrictnessAgrees config outcomes after := by
  have unasked : index.Builds (index.after config []) outcomes after := builds
  obtain ⟨asked, knows⟩ := unasked.knows apart
  have onlyBuilt {strict : Bool} {name : String} (member : name ∈ after.enumerationNames strict) :
      ∃ decl ∈ index.enums.values, decl.name = some name ∧
        ∃ built, (.enumeration decl, .ok built) ∈ outcomes := by
    obtain ⟨decl, built, listed, isName, -⟩ :=
      (builds.mem_enumerationNames apart distinct).mp member
    have found := get?_of_mem_declarations_enumeration (builds.mem_declarations listed)
    exact ⟨decl, DeclMap.mem_values_of_get? found, isName, built, listed⟩
  constructor
  case attempted =>
    intro decl member
    have found := DeclMap.get?_of_mem_values member
    exact builds.attempted (mem_declarations_enumeration found) rfl
  case failed =>
    intro decl error listed
    constructor
    · rw [Library.skipped_ofOutcomes]
      exact List.mem_filterMap.mpr ⟨_, listed, rfl⟩
    · exact fun built => builds.not_built_of_error listed
  case made =>
    intro decl name built isName listed
    exact builds.made knows distinct acyclic isName listed
  case unnamed =>
    intro decl member
    exact represent_unnamed acyclic (DeclMap.get?_of_mem_values member)
  case listed =>
    intro decl member name isName strict
    rw [builds.mem_enumerationNames apart distinct]
    constructor
    · rintro ⟨other, built, listed, isOther, same⟩
      have declared := mem_declarations_enumeration (DeclMap.get?_of_mem_values member)
      cases distinct.unique declared (builds.mem_declarations listed) isName isOther rfl
      exact ⟨same, built, listed⟩
    · rintro ⟨same, built, listed⟩
      exact ⟨decl, built, listed, isName, same⟩
  case onlyBuilt => exact fun strict name => onlyBuilt
  case once => exact after.nodup_enumerationNames
  case manifest =>
    intro strict
    cases strict <;> simp [Run.manifest]
  case readable =>
    intro plain strict
    refine wordsOf_intercalate fun name member => ?_
    obtain ⟨decl, declared, isName, -⟩ := onlyBuilt member
    exact plain decl declared name isName

/-- After a build in a new run, the tree, the bridge table, the mapper and the manifest agree
on which enumerations are strict. -/
theorem strictness_agrees (acyclic : index.Acyclic) (apart : index.KindsApart)
    (distinct : index.NamedEnumsApart) (config : Config) :
    ∃ outcomes after, index.Builds (.start config) outcomes after ∧
      index.build.run (.start config) = (.ok (Library.ofOutcomes outcomes), after) ∧
      index.StrictnessAgrees config outcomes after := by
  obtain ⟨outcomes, after, builds⟩ := index.exists_builds (.start config)
  exact ⟨outcomes, after, builds, builds.build_run,
    builds.strictnessAgrees acyclic apart distinct⟩

def color : EnumDecl :=
  { id := ⟨"color"⟩, name := some "Color", base := .uint, constants := [⟨"RED", 0, false⟩] }

def flags : EnumDecl :=
  { id := ⟨"flags"⟩, name := some "io::Flags", base := .uint, constants := [⟨"READ", 1, true⟩] }

/-- A strict enumeration, one with a written value, and one without a name. -/
def settings : Index where
  enums := .ofList [color, flags, {
    id := ⟨"limits"⟩, base := .uint, constants := [⟨"LIMIT", 8, true⟩] }]

theorem acyclic_settings : settings.Acyclic := by
  apply acyclic_of_decreasing settings fun _ => 0
  · decide
  · decide

theorem strictness_agrees_settings :
    settings.Acyclic ∧ settings.KindsApart ∧ settings.NamedEnumsApart ∧
      ∃ outcomes after, settings.Builds (.start {}) outcomes after ∧
        settings.StrictnessAgrees {} outcomes after ∧
        (∃ built, (.enumeration color, .ok built) ∈ outcomes) ∧
        (∃ built, (.enumeration flags, .ok built) ∈ outcomes) ∧
        "Color" ∈ after.enumerationNames true ∧ "io::Flags" ∈ after.enumerationNames false := by
  have apart : settings.KindsApart := by decide
  have distinct : settings.NamedEnumsApart := by decide
  obtain ⟨outcomes, after, builds, -, agrees⟩ :=
    strictness_agrees acyclic_settings apart distinct {}
  have clean := builds.clean_of_buildsAll (by decide +kernel)
  have colorFound : settings.enums.get? color.id = some color := rfl
  have flagsFound : settings.enums.get? flags.id = some flags := rfl
  have colorBuilt := builds.built_of_clean clean (mem_declarations_enumeration colorFound) rfl
  have flagsBuilt := builds.built_of_clean clean (mem_declarations_enumeration flagsFound) rfl
  refine ⟨acyclic_settings, apart, distinct, outcomes, after, builds, agrees, colorBuilt,
    flagsBuilt, ?_, ?_⟩
  · have member := DeclMap.mem_values_of_get? colorFound
    exact (agrees.listed color member "Color" rfl true).mpr ⟨by decide, colorBuilt⟩
  · have member := DeclMap.mem_values_of_get? flagsFound
    exact (agrees.listed flags member "io::Flags" rfl false).mpr ⟨by decide, flagsBuilt⟩

end Index

end NativeBindings
