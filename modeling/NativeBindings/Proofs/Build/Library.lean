import Mathlib.Data.List.Nodup
import Mathlib.Data.List.Pairwise
import NativeBindings.Proofs.Build.Members

namespace NativeBindings

/-! # Whole builds

A build never fails: what its bridge table speaks of is in its tree.  All that is
said of single declarations is put together here for the library of a run.
-/

namespace Index

/-- From `run` on, a build leads to these outcomes and leaves `after` behind. -/
def Builds (index : Index) (run : Run) (outcomes : List Outcome) (after : Run) : Prop :=
  (index.outcomes (index.wanted run.config)).run run = (outcomes, after)

theorem exists_builds (index : Index) (run : Run) : ∃ outcomes after,
    index.Builds run outcomes after := ⟨_, _, rfl⟩

private theorem run_checked {compute : Config → StateM Run Library} {run after : Run}
    {library : Library} (ends : (compute run.config).run run = (library, after))
    (whole : library.dangling? = none) :
    (do
      let config := (← getThe Run).config
      let library ← compute config
      match library.dangling? with
      | some id => throw (.dangling id)
      | none => pure library : Attempt Library).run run = (.ok library, after) := by
  change (match ((compute run.config).run run).1.dangling? with
    | some id => throw (.dangling id)
    | none => pure ((compute run.config).run run).1 : Attempt Library).run
      ((compute run.config).run run).2 = _
  rw [ends]
  dsimp only
  rw [whole]
  rfl

namespace Builds

variable {index : Index} {run after : Run} {outcomes : List Outcome}
  (builds : index.Builds run outcomes after)

include builds

private theorem facts :
    run ≤ after ∧ outcomes.map (·.1) = index.wanted run.config ∧
      (∀ decl built, (decl, .ok built) ∈ outcomes → index.Gives after decl built) ∧
      run.Numbered after ((outcomes.filterMap Outcome.built?).flatMap Built.ids) := by
  have leaves := @leaves_outcomes index run (index.wanted run.config)
  rw [Leaves, builds] at leaves
  exact leaves

theorem le : run ≤ after := builds.facts.1

theorem listed : outcomes.map (·.1) = index.wanted run.config := builds.facts.2.1

theorem gives {decl : Declaration} {built : Built} (member : (decl, .ok built) ∈ outcomes) :
    index.Gives after decl built := builds.facts.2.2.1 decl built member

theorem mem_declarations {outcome : Outcome} (member : outcome ∈ outcomes) :
    outcome.1 ∈ index.declarations := by
  have wanted : outcome.1 ∈ index.wanted run.config := builds.listed ▸ List.mem_map_of_mem member
  exact (List.mem_filter.mp wanted).1

/-- What each attempt at a declaration would leave behind, the one of this build did. -/
theorem left {decl : Declaration} {built : Built} {holds : Run → Run → Built → Prop}
    (member : (decl, .ok built) ∈ outcomes)
    (leaves : ∀ start, (index.builder decl).Leaves start (holds start)) :
    ∃ start last, start.config = run.config ∧ last ≤ after ∧ holds start last built := by
  obtain ⟨start, last, attempt, le⟩ := attempted_of_mem builds member
  have placed := (leaves start).within (.inDeclaration decl.kind decl.displayName)
  rw [← buildDeclaration_eq] at placed
  obtain ⟨grown, found⟩ := placed
  rw [attempt] at grown found
  have config : start.config = run.config := by
    rw [← grown.config, ← le.config, builds.le.config]
  exact ⟨start, last, config, le, found built rfl⟩

/-- Numbers of stubs are given once. -/
theorem numbered : run.Numbered after (Library.ofOutcomes outcomes).stubs.ids :=
  builds.facts.2.2.2.perm (Library.ids_ofOutcomes outcomes)

/-- No two of the declarations gave the same stub. -/
theorem built_unique {first second : Built} {id : StubId}
    (firstListed : first ∈ outcomes.filterMap Outcome.built?)
    (secondListed : second ∈ outcomes.filterMap Outcome.built?)
    (inFirst : id ∈ first.ids) (inSecond : id ∈ second.ids) : first = second := by
  by_contra different
  have apart := (List.nodup_flatMap.mp builds.facts.2.2.2.distinct).2
  have symm : Std.Symm (Function.onFun List.Disjoint Built.ids) :=
    ⟨fun _ _ apart _ second first => apart first second⟩
  exact apart.forall firstListed secondListed different inFirst inSecond

/-- What is in the library was given by a declaration. -/
theorem of_mem_built {built : Built} (member : built ∈ outcomes.filterMap Outcome.built?) :
    ∃ decl ∈ index.declarations, index.Gives after decl built := by
  obtain ⟨⟨decl, result⟩, listed, isBuilt⟩ := List.mem_filterMap.mp member
  cases result with
  | error error => cases isBuilt
  | ok given =>
      cases isBuilt
      exact ⟨decl, builds.mem_declarations listed, builds.gives listed⟩

theorem functionGiven {stub : FunctionStub}
    (member : stub ∈ (Library.ofOutcomes outcomes).stubs.allFunctions) :
    ∃ decl ∈ index.declarations, index.FunctionGiven after decl stub := by
  rw [(Library.allFunctions_ofOutcomes outcomes).mem_iff] at member
  obtain ⟨built, listed, inside⟩ := List.mem_flatMap.mp member
  obtain ⟨decl, declared, gives⟩ := builds.of_mem_built listed
  exact ⟨decl, declared, gives.functionGiven inside⟩

/-- What is true of every declaration's table and properties is true of all. -/
private theorem mem_table {keys : Built → List StubId} {reached : PropertyStub → Prop}
    (each : ∀ {decl built}, index.Gives after decl built → ∀ id, id ∈ keys built ↔
      ∃ stub ∈ built.properties, stub.id = id ∧ reached stub) (id : StubId) :
    (∃ built ∈ outcomes.filterMap Outcome.built?, id ∈ keys built) ↔
      ∃ stub ∈ (Library.ofOutcomes outcomes).stubs.allProperties, stub.id = id ∧ reached stub := by
  have mem_all {stub : PropertyStub} :
      stub ∈ (Library.ofOutcomes outcomes).stubs.allProperties ↔
        stub ∈ (outcomes.filterMap Outcome.built?).flatMap Built.properties :=
    (Library.allProperties_ofOutcomes outcomes).mem_iff
  constructor
  · rintro ⟨built, listed, key⟩
    obtain ⟨decl, -, gives⟩ := builds.of_mem_built listed
    obtain ⟨stub, inside, found⟩ := (each gives id).mp key
    exact ⟨stub, mem_all.mpr (List.mem_flatMap.mpr ⟨built, listed, inside⟩), found⟩
  · rintro ⟨stub, member, found⟩
    obtain ⟨built, listed, inside⟩ := List.mem_flatMap.mp (mem_all.mp member)
    obtain ⟨decl, -, gives⟩ := builds.of_mem_built listed
    exact ⟨built, listed, (each gives id).mpr ⟨stub, inside, found⟩⟩

theorem mem_getters {id : StubId} :
    id ∈ (Library.ofOutcomes outcomes).table.getters.keys ↔
      ∃ stub ∈ (Library.ofOutcomes outcomes).stubs.allProperties,
        stub.id = id ∧ stub.getter? = some .bridge :=
  (Library.mem_getters_ofOutcomes outcomes).trans
    (builds.mem_table (fun gives _ => gives.accessed.mem_getters) id)

theorem mem_setters {id : StubId} :
    id ∈ (Library.ofOutcomes outcomes).table.setters.keys ↔
      ∃ stub ∈ (Library.ofOutcomes outcomes).stubs.allProperties,
        stub.id = id ∧ stub.setter? = some .bridge :=
  (Library.mem_setters_ofOutcomes outcomes).trans
    (builds.mem_table (fun gives _ => gives.accessed.mem_setters) id)

theorem not_dangling : (Library.ofOutcomes outcomes).dangling? = none := by
  refine List.find?_eq_none.mpr fun id referenced => ?_
  obtain ⟨built, listed, inside⟩ := (Library.mem_referenced_ofOutcomes outcomes).mp referenced
  obtain ⟨decl, -, gives⟩ := builds.of_mem_built listed
  have member := List.mem_flatMap.mpr ⟨built, listed, gives.referenced inside⟩
  simp [(Library.ids_ofOutcomes outcomes).mem_iff.mpr member]

/-- A build never fails. -/
theorem build_run : index.build.run run = (.ok (Library.ofOutcomes outcomes), after) := by
  have added := index.addDeclarations_run {} (index.wanted run.config) run
  rw [builds] at added
  unfold build
  exact @run_checked (fun config => index.addDeclarations {} (index.wanted config)) _ _ _ added
    builds.not_dangling

end Builds

end Index

end NativeBindings
