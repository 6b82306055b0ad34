import NativeBindings.Proofs.Build.Constants
import NativeBindings.Proofs.Build.Naming

namespace NativeBindings

/-! # Structs and typedefs of one name

A struct gives way to a typedef of its name.  It looks for one among the names as they are
declared, while aliases are called by the last component alone; and nothing makes room for
the name that the struct takes instead, nor for the alias of a typedef's memory.  These are
the ways in which the class of a struct and the alias of a typedef can still meet.
-/

theorem hasScope_afterLastScope {best name : List Char} (isScoped : hasScope name) :
    hasScope (afterLastScope best name) = false := by
  induction name generalizing best with
  | nil => cases isScoped
  | cons c rest ih =>
      rw [afterLastScope]
      cases inside : hasScope rest with
      | true => exact ih inside
      | false =>
          -- The scope is at the front, and there is no other behind it.
          have here : c = ':' ∧ rest.head? = some ':' := by simpa [hasScope, inside] using isScoped
          rw [if_pos here, afterLastScope_of_not_hasScope inside]
          cases rest with
          | nil => rfl
          | cons next tail => exact (Bool.or_eq_false_iff.mp inside).2

theorem isQualified_simpleName (name : String) : isQualified (simpleName name) = false := by
  rw [isQualified, simpleName, String.toList_ofList]
  cases isScoped : hasScope name.toList with
  | true => exact hasScope_afterLastScope isScoped
  | false => rwa [afterLastScope_of_not_hasScope isScoped]

theorem simpleName_simpleName (name : String) : simpleName (simpleName name) = simpleName name :=
  simpleName_of_not_isQualified (isQualified_simpleName name)

namespace Index

variable {index : Index} {config : Config}

/-- The name of a struct that has a definition. -/
def structName (index : Index) (decl : StructDecl) (name : String) : String :=
  if index.hasTypedefNamed (simpleName name) (some decl.id) then simpleName name ++ "Struct"
  else simpleName name

theorem settledClassifier_struct {decl : StructDecl} {name : String}
    (isNamed : decl.name = some name) (defined : decl.layout.isSome) :
    index.settledClassifier config (.struct decl) =
      some ⟨config.effectivePackage, index.structName decl name⟩ := by
  have notForward : decl.isForward = false := by
    simpa [StructDecl.isForward, Option.isSome_iff_ne_none] using defined
  simp only [settledClassifier, naming, isNamed, notForward, structName]
  cases index.hasTypedefNamed (simpleName name) (some decl.id) <;> rfl

theorem hasTypedefNamed_eq_false_iff {name : String} {id : DeclId} :
    index.hasTypedefNamed name (some id) = false ↔
      ∀ typedef ∈ index.typedefs.values, typedef.name = name →
        typedef.aliased.shape = .record id := by
  rw [hasTypedefNamed, List.any_eq_false]
  refine forall₂_congr fun typedef _ => ?_
  cases typedef.aliased.shape <;> simp

/-- A struct keeps its name if typedefs have it only as names of the struct itself. -/
theorem structName_eq {decl : StructDecl} {name : String}
    (own : ∀ typedef ∈ index.typedefs.values, simpleName typedef.name = simpleName name →
      typedef.aliased.shape = .record decl.id) : index.structName decl name = simpleName name := by
  have free : index.hasTypedefNamed (simpleName name) (some decl.id) = false := by
    refine hasTypedefNamed_eq_false_iff.mpr fun typedef member same => own typedef member ?_
    rw [same, simpleName_simpleName]
  rw [structName, free]
  rfl

/-- The classifier under which a typedef is declared. -/
def typedefClassifier (config : Config) (typedef : TypedefDecl) : Classifier :=
  ⟨config.effectivePackage, simpleName typedef.name⟩

section Build

variable {run after : Run} {outcomes : List Outcome} {asked : List DeclId}
  (builds : index.Builds run outcomes after) (knows : index.Knows config asked after)

include builds knows

/-- A struct with a name and a definition gives one class, of a settled name. -/
theorem Builds.class_of_struct {decl : StructDecl} {name : String} (isNamed : decl.name = some name)
    (defined : decl.layout.isSome) {built : Built} (listed : (.struct decl, .ok built) ∈ outcomes)
    (classifier : Classifier) :
    (∃ stub, .ofClass stub ∈ built.elements ∧ stub.classifier = classifier) ↔
      ⟨config.effectivePackage, index.structName decl name⟩ = classifier := by
  cases builds.gives listed with
  | forwardStruct missing => simp [missing] at defined
  | struct _ named =>
      have settled := knows.names (builds.mem_declarations listed)
        (by simp [Declaration.isUnnamedStruct, isNamed]) named
      rw [settledClassifier_struct isNamed defined] at settled
      cases settled
      simp

/-- A typedef that does not name itself gives an alias for its values, and one for its memory
if it is used by name. -/
theorem Builds.alias_of_typedef {typedef : TypedefDecl} {built : Built}
    (listed : (.typedef typedef, .ok built) ∈ outcomes) (classifier : Classifier) :
    (∃ stub, .ofTypealias stub ∈ built.elements ∧ stub.classifier = classifier) ↔
      index.namesItself typedef = false ∧ typedefClassifier config typedef = classifier ∨
        (∃ aliased, index.Answers after typedef.aliased aliased ∧
          index.keepsName typedef aliased) ∧
          (typedefClassifier config typedef).variableOf = classifier := by
  have settled {own : Classifier} (named : after.Names (.typedef typedef) own) :
      typedefClassifier config typedef = own :=
    Option.some.inj (knows.names (builds.mem_declarations listed) rfl named)
  have answered {aliased : Representation} (answers : index.Answers after typedef.aliased aliased) :
      (∃ other, index.Answers after typedef.aliased other ∧ index.keepsName typedef other) ↔
        index.keepsName typedef aliased := by
    refine ⟨fun ⟨other, again, keeps⟩ => ?_, fun keeps => ⟨aliased, answers, keeps⟩⟩
    rwa [answers.represented.unique again.represented]
  cases builds.gives listed with
  | namesItself self => simp [self, not_keepsName_of_namesItself]
  | typedef other named answers through =>
      cases settled named
      rw [answered answers]
      simp [other, through]
  | keptTypedef named answers keeps =>
      cases settled named
      have other : index.namesItself typedef = false := by
        rw [← Bool.not_eq_true]
        intro self
        cases (not_keepsName_of_namesItself self).symm.trans keeps
      rw [answered answers]
      simp [other, keeps, or_and_right, exists_or]

end Build

/-- The ways in which the class of a struct and an alias of a typedef can share a name. -/
inductive Clashes (index : Index) (run : Run) (decl : StructDecl) (name : String)
    (typedef : TypedefDecl) : Prop
  /-- The struct keeps its name, for the typedef has it only behind a scope. -/
  | scope : index.namesItself typedef = false →
      index.hasTypedefNamed (simpleName name) (some decl.id) = false →
      isQualified typedef.name → simpleName name = simpleName typedef.name →
      Clashes index run decl name typedef
  /-- The typedef has the name that the struct takes instead of its own. -/
  | instead : index.namesItself typedef = false →
      index.hasTypedefNamed (simpleName name) (some decl.id) →
      simpleName name ++ "Struct" = simpleName typedef.name →
      Clashes index run decl name typedef
  /-- The memory of the typedef has an alias of the struct's name. -/
  | memory {aliased} : index.Answers run typedef.aliased aliased →
      index.keepsName typedef aliased →
      index.structName decl name = simpleName typedef.name ++ "Var" →
      Clashes index run decl name typedef

section Struct

variable {decl : StructDecl} {name : String} {typedef : TypedefDecl}
  (declared : .struct decl ∈ index.declarations) (isNamed : decl.name = some name)

include declared isNamed

/-- A typedef of a struct under the struct's name names itself. -/
theorem namesItself_of_struct (aliases : typedef.aliased.shape = .record decl.id)
    (same : simpleName name = simpleName typedef.name) : index.namesItself typedef := by
  have found : index.structs.get? decl.id = some decl :=
    DeclMap.get?_of_mem_values (mem_declarations_iff.mp declared)
  simp [namesItself, tagName?, aliases, found, isNamed, same]

/-- Where a struct keeps its name, another typedef has that name only behind a scope. -/
theorem isQualified_of_structName (typedefDeclared : .typedef typedef ∈ index.declarations)
    (other : index.namesItself typedef = false)
    (free : index.hasTypedefNamed (simpleName name) (some decl.id) = false)
    (same : simpleName name = simpleName typedef.name) : isQualified typedef.name := by
  by_contra plain
  rw [Bool.not_eq_true] at plain
  have member : typedef ∈ index.typedefs.values := mem_declarations_iff.mp typedefDeclared
  have unscoped : typedef.name = simpleName name :=
    (simpleName_of_not_isQualified plain).symm.trans same.symm
  have aliases := hasTypedefNamed_eq_false_iff.mp free typedef member unscoped
  cases (namesItself_of_struct declared isNamed aliases same).symm.trans other

theorem clashes_iff {run : Run} (typedefDeclared : .typedef typedef ∈ index.declarations) :
    index.Clashes run decl name typedef ↔
      index.namesItself typedef = false ∧
          index.structName decl name = simpleName typedef.name ∨
        (∃ aliased, index.Answers run typedef.aliased aliased ∧
          index.keepsName typedef aliased) ∧
          index.structName decl name = simpleName typedef.name ++ "Var" := by
  constructor
  · intro clashes
    cases clashes with
    | scope other free _ same => exact .inl ⟨other, by simpa [structName, free] using same⟩
    | instead other claimed same => exact .inl ⟨other, by simpa [structName, claimed] using same⟩
    | memory answers keeps same => exact .inr ⟨⟨_, answers, keeps⟩, same⟩
  · rintro (⟨other, same⟩ | ⟨⟨aliased, answers, keeps⟩, same⟩)
    · rw [structName] at same
      split at same
      · rename_i claimed
        exact .instead other claimed same
      · rename_i free
        rw [Bool.not_eq_true] at free
        exact .scope other free
          (isQualified_of_structName declared isNamed typedefDeclared other free same) same
    · exact .memory answers keeps same

end Struct

/-- A typedef declared under the very name of a struct never clashes with it. -/
theorem not_clashes_of_name_eq {run : Run} {decl : StructDecl} {name : String}
    {typedef : TypedefDecl} (same : typedef.name = simpleName name) :
    ¬index.Clashes run decl name typedef := by
  have unscoped : simpleName typedef.name = simpleName name := by
    rw [same, simpleName_simpleName]
  intro clashes
  cases clashes with
  | scope _ _ isQualified _ =>
      rw [same, isQualified_simpleName] at isQualified
      cases isQualified
  | «instead» _ _ equal =>
      rw [unscoped, String.append_eq_left_iff] at equal
      exact absurd equal (by decide)
  | memory _ _ equal =>
      rw [unscoped, structName] at equal
      split at equal
      · rw [String.append_right_inj] at equal
        exact absurd equal (by decide)
      · rw [eq_comm, String.append_eq_left_iff] at equal
        exact absurd equal (by decide)

/-- What the names of a struct and of the typedefs beside it come to in a build. -/
structure StructNamed (index : Index) (config : Config) (outcomes : List Outcome) (after : Run)
    (decl : StructDecl) (name : String) (built : Built) : Prop where
  /-- A class and an alias share a name exactly if the declarations clash. -/
  clashes : ∀ typedef aliases, (.typedef typedef, .ok aliases) ∈ outcomes →
    ((∃ stub other, .ofClass stub ∈ built.elements ∧ .ofTypealias other ∈ aliases.elements ∧
      stub.classifier = other.classifier) ↔ index.Clashes after decl name typedef)
  /-- They never do if the typedef is declared under the name of the struct. -/
  resolved : ∀ typedef, typedef.name = simpleName name → ¬index.Clashes after decl name typedef
  /-- The struct keeps its name if typedefs have it only as names of the struct itself. -/
  own : (∀ typedef ∈ index.typedefs.values, simpleName typedef.name = simpleName name →
      typedef.aliased.shape = .record decl.id) →
    ∃ stub, .ofClass stub ∈ built.elements ∧
      stub.classifier = ⟨config.effectivePackage, simpleName name⟩

theorem Builds.structNamed {run after : Run} {outcomes : List Outcome} {asked : List DeclId}
    (builds : index.Builds run outcomes after) (knows : index.Knows config asked after)
    {decl : StructDecl} {name : String} {built : Built} (isNamed : decl.name = some name)
    (defined : decl.layout.isSome) (listed : (.struct decl, .ok built) ∈ outcomes) :
    index.StructNamed config outcomes after decl name built where
  clashes typedef aliases typedefListed := by
    have declared := builds.mem_declarations listed
    have typedefDeclared := builds.mem_declarations typedefListed
    have ofStruct := builds.class_of_struct knows isNamed defined listed
    have ofTypedef := builds.alias_of_typedef knows typedefListed
    rw [clashes_iff declared isNamed typedefDeclared]
    constructor
    · rintro ⟨stub, other, inStruct, inTypedef, same⟩
      have first := (ofStruct _).mp ⟨stub, inStruct, rfl⟩
      rcases (ofTypedef _).mp ⟨other, inTypedef, rfl⟩ with ⟨apart, second⟩ | ⟨kept, second⟩
      · exact .inl ⟨apart, congrArg Classifier.name (first.trans (same.trans second.symm))⟩
      · exact .inr ⟨kept, congrArg Classifier.name (first.trans (same.trans second.symm))⟩
    · obtain ⟨stub, inStruct, first⟩ := (ofStruct _).mpr rfl
      rintro (⟨apart, same⟩ | ⟨kept, same⟩)
      · obtain ⟨other, inTypedef, second⟩ := (ofTypedef _).mpr (.inl ⟨apart, rfl⟩)
        refine ⟨stub, other, inStruct, inTypedef, ?_⟩
        rw [first, second, same]
        rfl
      · obtain ⟨other, inTypedef, second⟩ := (ofTypedef _).mpr (.inr ⟨kept, rfl⟩)
        refine ⟨stub, other, inStruct, inTypedef, ?_⟩
        rw [first, second, same]
        rfl
  resolved typedef same := not_clashes_of_name_eq same
  own only := by
    rw [← structName_eq only]
    exact (builds.class_of_struct knows isNamed defined listed _).mpr rfl

/-- Whatever a run was asked before, in a build the class of a struct and the alias of a
typedef share a name only where the declarations clash. -/
theorem structs_named (apart : index.KindsApart) (config : Config) (queries : List index.Query) :
    ∃ outcomes after, index.Builds (index.after config queries) outcomes after ∧
      index.build.run (index.after config queries) = (.ok (Library.ofOutcomes outcomes), after) ∧
      ∀ decl name built, decl.name = some name → decl.layout.isSome →
        (.struct decl, .ok built) ∈ outcomes →
          index.StructNamed config outcomes after decl name built := by
  obtain ⟨outcomes, after, builds⟩ := index.exists_builds (index.after config queries)
  obtain ⟨asked, knows⟩ := builds.knows apart
  exact ⟨outcomes, after, builds, builds.build_run, fun decl name built isNamed defined listed =>
    builds.structNamed knows isNamed defined listed⟩

def handle : StructDecl :=
  { id := ⟨"handle"⟩, name := some "Handle", layout := some { size := 4, align := 4 } }

def scopedHandle : TypedefDecl := ⟨⟨"io_handle"⟩, "io::Handle", .int⟩

/-- A struct, and a typedef of the same name in a namespace. -/
def streams : Index where
  structs := .ofList [handle]
  typedefs := .ofList [scopedHandle]

theorem structs_named_streams : streams.KindsApart ∧ ∃ outcomes after built aliases,
    streams.Builds (.start {}) outcomes after ∧ handle.layout.isSome ∧
      (.struct handle, .ok built) ∈ outcomes ∧ (.typedef scopedHandle, .ok aliases) ∈ outcomes ∧
      streams.StructNamed {} outcomes after handle "Handle" built ∧
      ∃ stub other, .ofClass stub ∈ built.elements ∧ .ofTypealias other ∈ aliases.elements ∧
        stub.classifier = other.classifier := by
  have apart : streams.KindsApart := by decide
  obtain ⟨outcomes, after, builds, -, each⟩ := structs_named apart {} []
  have clean := builds.clean_of_buildsAll (by decide +kernel)
  have structFound : streams.structs.get? handle.id = some handle := rfl
  have typedefFound : streams.typedefs.get? scopedHandle.id = some scopedHandle := rfl
  obtain ⟨built, listed⟩ :=
    builds.built_of_clean clean (mem_declarations_struct structFound) rfl
  obtain ⟨aliases, typedefListed⟩ :=
    builds.built_of_clean clean (mem_declarations_typedef typedefFound) rfl
  have named : streams.StructNamed {} outcomes after handle "Handle" built :=
    each _ _ _ rfl rfl listed
  refine ⟨apart, outcomes, after, built, aliases, builds, rfl, listed, typedefListed, named, ?_⟩
  exact (named.clashes scopedHandle aliases typedefListed).mpr
    (.scope (by decide) (by decide) (by decide) (by decide))

end Index

end NativeBindings
