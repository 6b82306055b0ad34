import NativeBindings.Naming.Manifest
import NativeBindings.Proofs.Build.Compared
import NativeBindings.Proofs.Native.Declared

namespace NativeBindings

/-! # What a run records of enumerations

An enumeration that is built under a name is recorded by that name, strict or not.  It is
recorded when nothing can fail any more, and no other declaration records anything, so what
a run has recorded can be read off what came of its declarations.  The manifest lists the
strict ones and the others, their names joined by spaces.
-/

namespace Run

theorem mem_enumerationNames {run : Run} {strict : Bool} {name : String} :
    name ∈ run.enumerationNames strict ↔ run.strictness.get? name = some strict := by
  rw [enumerationNames, List.mem_map]
  constructor
  · rintro ⟨entry, listed, rfl⟩
    obtain ⟨member, same⟩ := List.mem_filter.mp listed
    rw [← of_decide_eq_true same]
    exact SortedMap.mem_entries_iff.mp member
  · intro found
    exact ⟨(name, strict), List.mem_filter.mpr ⟨SortedMap.mem_entries_iff.mpr found, by simp⟩, rfl⟩

theorem nodup_enumerationNames (run : Run) (strict : Bool) :
    (run.enumerationNames strict).Nodup :=
  run.strictness.nodup_keys.sublist (List.filter_sublist.map _)

end Run

/-- What stands between the spaces of a text. -/
def wordsOf (text : String) : List String :=
  ((text.toList.splitOn ' ').map String.ofList).filter (· ≠ "")

theorem wordsOf_intercalate {names : List String} (plain : ∀ name ∈ names, ' ' ∉ name.toList) :
    wordsOf (String.intercalate " " names) = names.filter (· ≠ "") := by
  cases names with
  | nil => rfl
  | cons first rest =>
      have parts : ∀ part ∈ (first :: rest).map String.toList, ' ' ∉ part := by
        simpa using plain
      rw [wordsOf, String.toList_intercalate, show " ".toList = [' '] from rfl,
        List.splitOn_intercalate _ parts (by simp), List.map_map]
      simp [Function.comp_def]

/-- The entry that a declaration leaves among those of the enumerations. -/
def Outcome.recorded? (config : Config) : Outcome → Option (String × Bool)
  | (.enumeration decl, .ok _) => decl.name.map (·, config.isStrict decl)
  | _ => none

theorem Outcome.mem_recorded {config : Config} {outcomes : List Outcome} {name : String}
    {strict : Bool} : (name, strict) ∈ outcomes.filterMap (recorded? config) ↔
      ∃ decl built, (.enumeration decl, .ok built) ∈ outcomes ∧ decl.name = some name ∧
        config.isStrict decl = strict := by
  rw [List.mem_filterMap]
  constructor
  · rintro ⟨⟨decl, result⟩, listed, found⟩
    cases decl with
    | enumeration decl =>
        cases result with
        | ok built =>
            obtain ⟨other, named, same⟩ := Option.map_eq_some_iff.mp found
            cases same
            exact ⟨decl, built, listed, named, rfl⟩
        | error error => cases found
    | _ => cases found
  · rintro ⟨decl, built, listed, named, rfl⟩
    exact ⟨_, listed, by rw [recorded?, named]; rfl⟩

namespace Comparison

/-- A run beside itself that has recorded no more than this. -/
def still (strictness : SortedMap String Bool) : Comparison where
  view := 1
  inStep first second := first = second ∧ first.strictness = strictness
  mayReach _ := True
  mayReach_of_le _ _ := trivial

theorem simulates_still (index : Index) (strictness : SortedMap String Bool) :
    (still strictness).Simulates index where
  config := by
    rintro first _ ⟨rfl, -⟩
    exact .refl _ _
  classifier decl _ := by
    refine ⟨index.grows_classifier decl, ?_⟩
    rintro first _ ⟨rfl, same⟩ -
    obtain ⟨_, _, _, frame⟩ := index.classifier_frame decl first
    refine ⟨⟨rfl, ?_⟩, .answer _ _⟩
    rw [frame]
    exact same
  freshStub := by
    refine ⟨Run.grows_freshStub, ?_⟩
    rintro first _ ⟨rfl, same⟩ -
    exact ⟨⟨rfl, same⟩, rfl⟩

end Comparison

namespace Index

/-- Nothing was recorded between two states of a run, and enumerations kept their names. -/
structure Quiet (index : Index) (run later : Run) : Prop where
  config : later.config = run.config
  strictness : later.strictness = run.strictness
  names : index.NamesEnums later

variable {index : Index} {run after : Run} {outcomes : List Outcome}

theorem leaves_recordStrictness (name : String) (strict : Bool) :
    Leaves (Run.recordStrictness name strict) run fun after _ =>
      after.strictness = run.strictness.insert name strict :=
  ⟨Run.grows_recordStrictness name strict run, rfl⟩

section Still

variable {α : Type} [MulAction View α] {compute : StateM Run α}
  (agree : ∀ strictness, (Comparison.still strictness).Agree compute compute)

include agree

theorem leaves_strictness :
    Leaves compute run fun after _ => after.strictness = run.strictness :=
  ⟨(agree run.strictness).1 run, ((agree run.strictness).2 run run ⟨rfl, rfl⟩ trivial).1.2⟩

theorem leaves_quiet (kept : Keeps index.NamesEnums compute) (names : index.NamesEnums run) :
    Leaves compute run fun after _ => index.Quiet run after :=
  have same := leaves_strictness agree
  ⟨same.1, same.1.config, same.2, kept run names⟩

end Still

/-- An enumeration is recorded if and only if it is built under a name. -/
theorem leaves_strictness_buildEnum (apart : index.KindsApart) {decl : EnumDecl}
    (declared : .enumeration decl ∈ index.declarations) (names : index.NamesEnums run) :
    Leaves (index.buildEnum decl).built.run run fun after result =>
      after.strictness = run.strictness.insertAll
        (Outcome.recorded? run.config (.enumeration decl, result)).toList := by
  have keeping := keeping_namesEnums apart
  have still := Comparison.simulates_still index
  rw [buildEnum_eq declared]
  refine .attempt (leaves_quiet (fun strictness => (still strictness).required decl.base)
    (keeping.required decl.base) names) (fun _ _ quiet => quiet.strictness)
    fun base mid _ quiet => .read ?_
  rw [← quiet.config, ← quiet.strictness]
  dsimp only
  split
  · exact .pure rfl
  rename_i entries _
  have asked : Leaves (index.classifier (.enumeration decl)) mid fun after answer =>
      index.Quiet mid after ∧ answer.isSome = decl.name.isSome := by
    have found := leaves_quiet (fun strictness => (still strictness).classifier _ declared)
      (keeping.classifier _ declared) quiet.names
    have typeId : (Declaration.enumeration decl).typeId? = some decl.id := rfl
    exact ⟨found.1, found.2, found.2.names decl declared _ (index.classifier_known typeId mid)⟩
  refine .lift_bind asked fun answer named _ found => ?_
  obtain ⟨quiet, isNamed⟩ := found
  rw [← quiet.config, ← quiet.strictness]
  cases answer with
  | none =>
      have unnamed : decl.name = none := by simpa using isNamed.symm
      refine .lift_bind (leaves_strictness fun strictness =>
        (still strictness).constantProperties (.one base.target) (.one entries))
        fun constants after _ same => .pure ?_
      rw [same, Outcome.recorded?, unnamed]
      rfl
  | some classifier =>
      obtain ⟨name, isName⟩ := Option.isSome_iff_exists.mp isNamed.symm
      simp only [isName]
      refine .lift_bind (leaves_recordStrictness name _) fun _ later _ recorded => ?_
      -- What is left to do once the enumeration is recorded cannot fail.
      have finished {after : Run} (built : Built) (same : after.strictness = later.strictness) :
          after.strictness = named.strictness.insertAll
            (Outcome.recorded? named.config (.enumeration decl, .ok built)).toList := by
        rw [same, recorded, Outcome.recorded?, isName]
        rfl
      split
      · exact (leaves_strictness fun strictness =>
          (still strictness).closedBuilt (.one _) (.one _) (.one _)).bind
            fun built after _ same => .pure (finished built same)
      · exact .lift_bind (leaves_strictness fun strictness =>
          (still strictness).buildOpen (.one _) (.one _) (.one _))
            fun elements after _ same => .pure (finished _ same)

theorem Outcome.recorded?_mapError {config : Config} {decl : Declaration}
    {result : Except BuildError Built} (place : BuildError → BuildError) :
    Outcome.recorded? config (decl, result.mapError place) =
      Outcome.recorded? config (decl, result) := by
  cases decl <;> cases result <;> rfl

/-- Other declarations record nothing. -/
theorem leaves_strictness_buildDeclaration (apart : index.KindsApart) {decl : Declaration}
    (declared : decl ∈ index.declarations) (names : index.NamesEnums run) :
    Leaves (index.buildDeclaration decl).run run fun after result =>
      after.strictness = run.strictness.insertAll
        (Outcome.recorded? run.config (decl, result)).toList := by
  by_cases other : decl.kind = .enumeration
  · cases decl with
    | enumeration decl =>
        rw [buildDeclaration_eq]
        refine (leaves_strictness_buildEnum apart declared names).bind
          fun result after _ recorded => .pure ?_
        rw [recorded, Outcome.recorded?_mapError]
    | _ => cases other
  · have same : Leaves (index.buildDeclaration decl).run run fun after _ =>
        after.strictness = run.strictness :=
      leaves_strictness fun strictness =>
        (Comparison.simulates_still index strictness).buildDeclaration declared
          fun same => absurd same other
    refine ⟨same.1, same.2.trans ?_⟩
    cases decl <;> first | rfl | cases other rfl

/-- What was recorded is what came of the enumerations, in their order. -/
theorem leaves_strictness_outcomes (apart : index.KindsApart) {decls : List Declaration}
    (declared : ∀ decl ∈ decls, decl ∈ index.declarations) (names : index.NamesEnums run) :
    Leaves (index.outcomes decls) run fun after outcomes =>
      after.strictness = run.strictness.insertAll
        (outcomes.filterMap (Outcome.recorded? run.config)) := by
  induction decls generalizing run with
  | nil => exact .pure rfl
  | cons decl rest ih =>
      have here := declared decl List.mem_cons_self
      have first : Leaves (index.buildDeclaration decl).run run fun after result =>
          after.strictness = run.strictness.insertAll
            (Outcome.recorded? run.config (decl, result)).toList ∧ index.NamesEnums after :=
        have recorded := leaves_strictness_buildDeclaration apart here names
        ⟨recorded.1, recorded.2, (keeping_namesEnums apart).buildDeclaration here run names⟩
      unfold Index.outcomes
      refine .bind first fun result mid le found => ?_
      obtain ⟨recorded, names⟩ := found
      refine .bind (ih (fun other later => declared other (List.mem_cons_of_mem _ later)) names)
        fun others after _ behind => .pure ?_
      rw [behind, recorded, le.config, ← SortedMap.insertAll_append, List.filterMap_cons]
      cases Outcome.recorded? run.config (decl, result) <;> rfl

/-- No two enumerations are called alike behind their scopes. -/
def NamedEnumsApart (index : Index) : Prop :=
  ∀ first ∈ index.enums.values, ∀ second ∈ index.enums.values, first.name.isSome →
    first.name.map simpleName = second.name.map simpleName → first.id = second.id

instance (index : Index) : Decidable index.NamedEnumsApart :=
  inferInstanceAs (Decidable (∀ first ∈ index.enums.values, ∀ second ∈ index.enums.values,
    first.name.isSome → first.name.map simpleName = second.name.map simpleName →
      first.id = second.id))

theorem NamedEnumsApart.unique (distinct : index.NamedEnumsApart) {first second : EnumDecl}
    (firstDeclared : .enumeration first ∈ index.declarations)
    (secondDeclared : .enumeration second ∈ index.declarations) {name other : String}
    (isName : first.name = some name) (isOther : second.name = some other)
    (same : simpleName name = simpleName other) : first = second := by
  have firstFound := get?_of_mem_declarations_enumeration firstDeclared
  have secondFound := get?_of_mem_declarations_enumeration secondDeclared
  have id := distinct first (DeclMap.mem_values_of_get? firstFound) second
    (DeclMap.mem_values_of_get? secondFound) (by simp [isName]) (by simp [isName, isOther, same])
  rw [id, secondFound] at firstFound
  exact (Option.some.inj firstFound).symm

/-- The names that are listed are those of the enumerations that were built, each with what
the configuration says of it. -/
theorem Builds.mem_enumerationNames {config : Config}
    (builds : index.Builds (.start config) outcomes after) (apart : index.KindsApart)
    (distinct : index.NamedEnumsApart) {strict : Bool} {name : String} :
    name ∈ after.enumerationNames strict ↔ ∃ decl built,
      (.enumeration decl, .ok built) ∈ outcomes ∧ decl.name = some name ∧
        config.isStrict decl = strict := by
  have declared : ∀ decl ∈ index.wanted config, decl ∈ index.declarations :=
    fun decl member => (List.mem_filter.mp member).1
  have recorded : after.strictness =
      SortedMap.insertAll ∅ (outcomes.filterMap (Outcome.recorded? config)) := by
    have ends := (leaves_strictness_outcomes apart declared (index.namesEnums_start config)).2
    rwa [show (index.outcomes (index.wanted config)).run (.start config) = _ from builds] at ends
  rw [Run.mem_enumerationNames, recorded, SortedMap.get?_insertAll_iff, Outcome.mem_recorded]
  rintro ⟨name, strict⟩ first ⟨again, other⟩ second ⟨⟩
  obtain ⟨decl, _, listed, isName, rfl⟩ := Outcome.mem_recorded.mp first
  obtain ⟨same, _, otherListed, isOther, rfl⟩ := Outcome.mem_recorded.mp second
  rw [distinct.unique (builds.mem_declarations listed) (builds.mem_declarations otherListed)
    isName isOther rfl]

end Index

end NativeBindings
