import NativeBindings.Proofs.Closure.Closed
import NativeBindings.Proofs.Mapping.Meaning

namespace NativeBindings

/-! # The typealiases of a build

A typedef that the mapper uses by name was built: the same questions that the mapper
asks about it were asked by the build, and were answered in the same way.  So its aliases
are in the library, and they say what the mapper takes the typedef for.
-/

/-- The typealiases among the stubs of typedefs. -/
def typedefAliases (outcomes : List Outcome) : List TypealiasStub :=
  outcomes.flatMap fun
    | (.typedef _, .ok built) => built.elements.filterMap (·.typealias?)
    | _ => []

/-- What the alias of a name stands for. -/
def aliaseeIn (aliases : List TypealiasStub) (classifier : Classifier) : Option TargetType :=
  (aliases.find? (·.classifier = classifier)).map (·.aliasee)

theorem aliaseeIn_of_mem {aliases : List TypealiasStub}
    (distinct : (aliases.map (·.classifier)).Nodup) {stub : TypealiasStub}
    (member : stub ∈ aliases) : aliaseeIn aliases stub.classifier = some stub.aliasee := by
  induction aliases with
  | nil => cases member
  | cons head rest ih =>
      obtain ⟨fresh, others⟩ := List.nodup_cons.mp distinct
      rcases List.mem_cons.mp member with rfl | later
      · simp [aliaseeIn]
      · have different : head.classifier ≠ stub.classifier := by
          intro same
          exact fresh (List.mem_map.mpr ⟨stub, later, same.symm⟩)
        rw [aliaseeIn, List.find?_cons_of_neg (by simpa using different)]
        exact ih others later

theorem aliaseeIn_eq_none {aliases : List TypealiasStub} {classifier : Classifier}
    (apart : ∀ stub ∈ aliases, stub.classifier ≠ classifier) :
    aliaseeIn aliases classifier = none := by
  rw [aliaseeIn, Option.map_eq_none_iff, List.find?_eq_none]
  simpa using apart

namespace Index

/-- No alias shares its name with another, with a name of the target that the mapper
uses, or with a name that the run uses for anything but a typedef. -/
structure AliasesApart (index : Index) (run : Run) (aliases : List TypealiasStub) : Prop where
  distinct : (aliases.map (·.classifier)).Nodup
  builtIn : ∀ stub ∈ aliases, stub.classifier ∉ mapperNames
  others : ∀ stub ∈ aliases, ∀ decl ∈ index.declarations, decl.kind ≠ .typedef →
    ¬index.Reference run decl stub.classifier

variable {index : Index} {run after : Run} {outcomes : List Outcome} {decl : TypedefDecl}

/-- An attempt at a typedef fails only if what it aliases is not represented, or if it has
no name. -/
theorem buildTypedef_error {error : BuildError}
    (fails : (index.buildTypedef decl).run run = (.error error, after)) :
    (index.represent decl.aliased).run run = (none, after) ∨
      after.classifiers.get? decl.id = some none := by
  unfold buildTypedef at fails
  split at fails
  · cases fails
  rcases asked : (index.represent decl.aliased).run run with ⟨found?, mid⟩
  have required := index.required_run decl.aliased run
  rw [asked] at required
  cases found? with
  | none =>
      rw [run_bind_error required] at fails
      cases fails
      exact .inl rfl
  | some aliased =>
      rw [run_bind_ok required] at fails
      rcases named : (index.classifier (.typedef decl)).run mid with ⟨own?, last⟩
      have resolved := index.resolved_run (.typedef decl) decl.id mid
      have typeId : (Declaration.typedef decl).typeId? = some decl.id := rfl
      have known := index.classifier_known typeId mid
      rw [named] at resolved known
      cases own? with
      | none =>
          rw [run_bind_error resolved] at fails
          cases fails
          exact .inr known
      | some own =>
          rw [run_bind_ok resolved] at fails
          dsimp only at fails
          split at fails <;> cases fails

theorem not_isRecord_of_keepsName {aliased : Representation}
    (keeps : index.keepsName decl aliased) : aliased.info.isRecord = false := by
  cases info : aliased.info with
  | struct | nativeClass => simp [keepsName, info] at keeps
  | _ => rfl

section Build

variable (builds : index.Builds run outcomes after)

include builds

/-- A typedef that is represented and named some time after a build was built by it. -/
theorem Builds.built_typedef {mid : Run} (le : after ≤ mid) (acyclic : index.Acyclic)
    {id : DeclId} {aliased : Representation} {own : Classifier}
    (found : index.typedefs.get? id = some decl)
    (represented : index.Represented mid decl.aliased.shape aliased)
    (named : mid.Names (.typedef decl) own) :
    ∃ built, (.typedef decl, .ok built) ∈ outcomes := by
  have attempted : .typedef decl ∈ outcomes.map (·.1) :=
    builds.listed ▸ mem_wanted (mem_declarations_typedef found) rfl
  obtain ⟨⟨_, result⟩, listed, rfl⟩ := List.mem_map.mp attempted
  cases result with
  | ok built => exact ⟨built, listed⟩
  | error error =>
      exfalso
      obtain ⟨start, last, attempt, before⟩ := attempted_of_mem builds listed
      obtain ⟨cause, fails⟩ := builder_error attempt
      have later := le_trans before le
      rcases buildTypedef_error (Attempt.error_of_untabled fails) with unrepresented | unnamed
      · have again := (index.finds_represent decl.aliased).again start mid
        have answers := (answers_iff acyclic).mpr represented
        rw [unrepresented] at again
        cases (again later).symm.trans answers
      · exact not_names_of_none rfl (later.classifiers unnamed) named

omit builds in
theorem mem_typedefAliases_of_built {built : Built} {stub : TypealiasStub}
    (listed : (.typedef decl, .ok built) ∈ outcomes) (member : .ofTypealias stub ∈ built.elements) :
    stub ∈ typedefAliases outcomes :=
  List.mem_flatMap.mpr ⟨_, listed, List.mem_filterMap.mpr ⟨_, member, rfl⟩⟩

/-- A typedef that was built and keeps its name has an alias for its values and one for its
memory. -/
theorem Builds.aliases_of_kept {mid : Run} {built : Built} (le : after ≤ mid)
    {aliased : Representation} {own : Classifier}
    (listed : (.typedef decl, .ok built) ∈ outcomes)
    (represented : index.Represented mid decl.aliased.shape aliased)
    (keeps : index.keepsName decl aliased) (named : mid.Names (.typedef decl) own) :
    ∃ value memory, .ofTypealias ⟨value, own, aliased.target.nonNull⟩ ∈ built.elements ∧
      .ofTypealias ⟨memory, own.variableOf, aliased.pointed⟩ ∈ built.elements := by
  cases (builds.gives listed).mono le with
  | namesItself self => cases (not_keepsName_of_namesItself self).symm.trans keeps
  | typedef _ _ answers through =>
      rw [represented.unique answers.represented] at keeps
      cases through.symm.trans keeps
  | @keptTypedef _ value memory _ _ given answers _ =>
      cases represented.unique answers.represented
      cases named.unique given
      refine ⟨value, memory, ?_, ?_⟩ <;> simp [not_isRecord_of_keepsName keeps]

/-- A typedef that keeps its name has an alias for its values and one for its memory. -/
theorem Builds.mem_typedefAliases {mid : Run} (le : after ≤ mid) (acyclic : index.Acyclic)
    {id : DeclId} {aliased : Representation} {own : Classifier}
    (found : index.typedefs.get? id = some decl)
    (represented : index.Represented mid decl.aliased.shape aliased)
    (keeps : index.keepsName decl aliased) (named : mid.Names (.typedef decl) own) :
    ∃ value memory, ⟨value, own, aliased.target.nonNull⟩ ∈ typedefAliases outcomes ∧
      ⟨memory, own.variableOf, aliased.pointed⟩ ∈ typedefAliases outcomes := by
  obtain ⟨built, listed⟩ := builds.built_typedef le acyclic found represented named
  obtain ⟨value, memory, forValues, forMemory⟩ :=
    builds.aliases_of_kept le listed represented keeps named
  exact ⟨value, memory, mem_typedefAliases_of_built listed forValues,
    mem_typedefAliases_of_built listed forMemory⟩

/-- The typealiases of a build say what its typedefs stand for. -/
theorem Builds.unaliases {mid : Run} (le : after ≤ mid) (acyclic : index.Acyclic)
    (apart : index.AliasesApart mid (typedefAliases outcomes)) :
    index.Unaliases mid (aliaseeIn (typedefAliases outcomes)) := by
  constructor
  · intro id decl aliased own found represented keeps named
    obtain ⟨value, memory, member, -⟩ := builds.mem_typedefAliases le acyclic found represented keeps named
    exact aliaseeIn_of_mem apart.distinct member
  · intro id decl aliased own found represented keeps named
    obtain ⟨value, memory, -, member⟩ := builds.mem_typedefAliases le acyclic found represented keeps named
    exact aliaseeIn_of_mem apart.distinct member
  · intro classifier member
    apply aliaseeIn_eq_none
    rintro stub inside rfl
    exact apart.builtIn stub inside member
  · intro decl declared notTypedef classifier reference
    apply aliaseeIn_eq_none
    rintro stub inside rfl
    exact apart.others stub inside decl declared notTypedef reference

/-- After a build, a type and its bare form are represented in the same way once the
aliases of typedefs are replaced.  In the bare form none is left to be replaced, except
where an enumeration without a name brings in a typedef. -/
theorem typealiases_mean_typedefs (acyclic : index.Acyclic) {later mid : Run}
    (le : after ≤ later) {type : QualType} {representation : Representation}
    (represents : (index.represent type).run later = (some representation, mid))
    (apart : index.AliasesApart mid (typedefAliases outcomes)) :
    ∃ other, (index.represent (index.bare type)).run mid = (some other, mid) ∧
      representation.SameMeaning (aliaseeIn (typedefAliases outcomes)) other ∧
      (¬index.Mentions (index.bareShape type.shape) →
        representation.target.Expands (aliaseeIn (typedefAliases outcomes)) other.target ∧
        representation.pointed.Expands (aliaseeIn (typedefAliases outcomes)) other.pointed) := by
  have answers := answers_of_represent represents
  have unaliases := builds.unaliases (le_trans le (le_of_represent represents)) acyclic apart
  obtain ⟨other, represented, meaning⟩ :=
    answers.represented.means unaliases acyclic
  refine ⟨other, (answers_iff acyclic).mpr represented, meaning, fun free => ?_⟩
  have plain := represented.plain unaliases free
  obtain ⟨target, expands, same⟩ := meaning.target
  obtain ⟨pointed, memoryExpands, memorySame⟩ := meaning.pointed
  cases same.unique (.refl plain.1)
  cases memorySame.unique (.refl plain.2)
  exact ⟨expands, memoryExpands⟩

end Build

/-- A typedef, one that uses it, and an enumeration without a name that does. -/
def levels : Index where
  typedefs := .ofList [
    ⟨⟨"level"⟩, "level_t", .int⟩,
    ⟨⟨"ladder"⟩, "ladder_t", .pointerTo ⟨"level_t", false, .named ⟨"level"⟩⟩⟩]
  enums := .ofList [{
    id := ⟨"steps"⟩, base := ⟨"level_t", false, .named ⟨"level"⟩⟩,
    constants := [⟨"LOW", 0, false⟩] }]

theorem acyclic_levels : levels.Acyclic := by
  apply acyclic_of_decreasing levels fun name =>
    if name = TypeName.typedef ⟨"level"⟩ then 0 else 1
  · decide
  · decide

theorem aliasesApart_levels {mid : Run} {aliases : List TypealiasStub}
    (distinct : (aliases.map (·.classifier)).Nodup)
    (builtIn : ∀ stub ∈ aliases, stub.classifier ∉ mapperNames)
    (unnamed : mid.classifiers.get? ⟨"steps"⟩ = some none) :
    levels.AliasesApart mid aliases := by
  refine ⟨distinct, builtIn, fun stub _ decl declared notTypedef reference => ?_⟩
  have only : ∀ decl ∈ levels.declarations,
      decl.kind = .typedef ∨ decl.typeId? = some ⟨"steps"⟩ := by decide +kernel
  rcases only decl declared with isTypedef | typeId
  · exact notTypedef isTypedef
  · obtain ⟨own, named, -⟩ := reference.companion
    exact not_names_of_none typeId unnamed named

theorem typealiases_mean_typedefs_levels :
    let type : QualType := .pointerTo ⟨"ladder_t", false, .named ⟨"ladder"⟩⟩
    levels.Acyclic ∧ ∃ outcomes after, levels.Builds (.start {}) outcomes after ∧
      ∃ representation other mid,
        (levels.represent type).run after = (some representation, mid) ∧
        levels.AliasesApart mid (typedefAliases outcomes) ∧
        (levels.represent (levels.bare type)).run mid = (some other, mid) ∧
        representation.SameMeaning (aliaseeIn (typedefAliases outcomes)) other ∧
        representation.target.text = "CPointer<ladder_tVar>?" ∧
        other.target.text = "CPointer<CPointerVar<IntVar>>?" := by
  intro type
  obtain ⟨outcomes, after, builds⟩ := levels.exists_builds (.start {})
  rcases represents : (levels.represent type).run after with ⟨found?, mid⟩
  have computed :
      (let built := (levels.outcomes (levels.wanted {})).run (.start {})
      let asked := (levels.represent type).run built.2
      let bare := (levels.represent (levels.bare type)).run asked.2
      let aliases := (typedefAliases built.1).map (·.classifier)
      aliases.Nodup && aliases.all (· ∉ mapperNames) &&
        asked.2.classifiers.get? ⟨"steps"⟩ = some none &&
        asked.1.map (·.target.text) = some "CPointer<ladder_tVar>?" &&
        bare.1.map (·.target.text) = some "CPointer<CPointerVar<IntVar>>?") = true := by
    decide +kernel
  have built : (levels.outcomes (levels.wanted {})).run (.start {}) = (outcomes, after) := builds
  simp only [built, represents, Bool.and_eq_true, decide_eq_true_eq, List.all_map,
    List.all_eq_true, Function.comp_apply, Option.map_eq_some_iff] at computed
  obtain ⟨⟨⟨⟨distinct, builtIn⟩, unnamed⟩, representation, rfl, text⟩, other, bare, otherText⟩ :=
    computed
  have apart := aliasesApart_levels distinct builtIn unnamed
  obtain ⟨again, answers, meaning, -⟩ :=
    typealiases_mean_typedefs builds acyclic_levels le_rfl represents apart
  rw [answers] at bare
  cases bare
  exact ⟨acyclic_levels, outcomes, after, builds, representation, other, mid, represents, apart,
    answers, meaning, text, otherText⟩

/-- An enumeration without a name is used as its base is, so a typedef stays in what has no
typedef itself. -/
theorem typedef_behind_enumeration_levels :
    let type : QualType := ⟨"steps", false, .enumeration ⟨"steps"⟩⟩
    levels.Acyclic ∧ ∃ outcomes after, levels.Builds (.start {}) outcomes after ∧
      ∃ representation other mid,
        (levels.represent type).run after = (some representation, mid) ∧
        levels.AliasesApart mid (typedefAliases outcomes) ∧
        (levels.represent (levels.bare type)).run mid = (some other, mid) ∧
        ∃ expanded, other.target ≠ expanded ∧
          representation.target.Expands (aliaseeIn (typedefAliases outcomes)) expanded := by
  intro type
  obtain ⟨outcomes, after, builds⟩ := levels.exists_builds (.start {})
  rcases represents : (levels.represent type).run after with ⟨found?, mid⟩
  have computed :
      (let built := (levels.outcomes (levels.wanted {})).run (.start {})
      let asked := (levels.represent type).run built.2
      let aliases := (typedefAliases built.1).map (·.classifier)
      aliases.Nodup && aliases.all (· ∉ mapperNames) &&
        asked.2.classifiers.get? ⟨"steps"⟩ = some none &&
        asked.1.any fun found => found.target.classifiers.any fun classifier =>
          (aliaseeIn (typedefAliases built.1) classifier).isSome) = true := by
    decide +kernel
  have built : (levels.outcomes (levels.wanted {})).run (.start {}) = (outcomes, after) := builds
  simp only [built, represents, Bool.and_eq_true, decide_eq_true_eq, List.all_map,
    List.all_eq_true, Function.comp_apply] at computed
  obtain ⟨⟨⟨distinct, builtIn⟩, unnamed⟩, hasAlias⟩ := computed
  cases found? with
  | none => cases hasAlias
  | some representation =>
      obtain ⟨classifier, inside, isAlias⟩ := List.any_eq_true.mp hasAlias
      have apart := aliasesApart_levels distinct builtIn unnamed
      have answers := answers_of_represent represents
      have unaliases := builds.unaliases (le_of_represent represents) acyclic_levels apart
      obtain ⟨-, -, ⟨expanded, expands, -⟩, -⟩ :=
        answers.represented.means unaliases acyclic_levels
      refine ⟨acyclic_levels, outcomes, after, builds, representation, representation, mid,
        represents, apart, answers, expanded, ?_, expands⟩
      rintro rfl
      have plain : aliaseeIn (typedefAliases outcomes) classifier = none :=
        expands.2 classifier inside
      rw [plain] at isAlias
      cases isAlias

end Index

end NativeBindings
