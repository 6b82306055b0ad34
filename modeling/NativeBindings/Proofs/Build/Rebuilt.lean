import NativeBindings.Proofs.Build.Compared

namespace NativeBindings

/-! # Building again

A build that comes after another one of the same index in the same run finds every name
decided.  It takes the numbers that come next and is else the same build: what the first
one gave is given once more, all numbers higher by one distance.
-/

/-- A run that goes on after `after` with other counters. -/
def Run.resumed (after : Run) (stub : Nat) (names : WrapperNames) : Run :=
  { after with nextStub := stub, wrapperNames := names }

namespace Comparison

/-- A build from `run` to `after` beside one that comes later: its names are decided, its
numbers are higher, and it records what is recorded already. -/
def again (run after : Run) (distance : Nat) (names : WrapperNames) : Comparison where
  view := .shift distance
  inStep first second :=
    first.config = after.config ∧ first.package = after.package ∧
      ∃ records, first.strictness = run.strictness.insertAll records ∧
        second = { after.resumed (first.nextStub + distance) names with
          strictness := after.strictness.insertAll records }
  mayReach first := ∀ id answer, first.classifiers.get? id = some answer →
    after.classifiers.get? id = some answer
  mayReach_of_le le reaches _ _ known := reaches _ _ (le.classifiers known)

theorem simulates_again (index : Index) (run after : Run) (distance : Nat)
    (names : WrapperNames) : (again run after distance names).Simulates index where
  config := by
    rintro first second ⟨config, -, -, -, rfl⟩
    rw [config]
    exact .refl _ _
  classifier decl declared := by
    refine ⟨index.grows_classifier decl, ?_⟩
    rintro first _ ⟨config, package, records, recorded, rfl⟩ reaches
    obtain ⟨structs, known, forward, frame⟩ := index.classifier_frame decl first
    cases typeId : decl.typeId? with
    | none =>
        rw [index.classifier_run_untyped typeId, index.classifier_run_untyped typeId]
        exact ⟨⟨config, package, records, recorded, rfl⟩, rfl⟩
    | some id =>
        have decided := reaches _ _ (index.classifier_known typeId first)
        have second : { after.resumed (first.nextStub + distance) names with
            strictness := after.strictness.insertAll records }.classifiers.get? id = _ := decided
        rw [index.classifier_run_known typeId second, frame]
        exact ⟨⟨config, package, records, recorded, rfl⟩, .answer _ _⟩
  freshStub := by
    refine ⟨Run.grows_freshStub, ?_⟩
    rintro first _ ⟨config, package, records, recorded, rfl⟩ -
    refine ⟨⟨config, package, records, recorded, ?_⟩, rfl⟩
    have next : first.nextStub + distance + 1 = first.nextStub + 1 + distance :=
      Nat.add_right_comm _ _ _
    exact congrArg (fun stub => { after.resumed stub names with
      strictness := after.strictness.insertAll records }) next

theorem again_recordStrictness (run after : Run) (distance : Nat) (names : WrapperNames)
    (name : String) (strict : Bool) :
    (again run after distance names).Agree (Run.recordStrictness name strict)
      (Run.recordStrictness name strict) := by
  refine ⟨Run.grows_recordStrictness name strict, ?_⟩
  rintro first _ ⟨config, package, records, recorded, rfl⟩ -
  refine ⟨⟨config, package, records ++ [(name, strict)], ?_, ?_⟩, rfl⟩
  · rw [SortedMap.insertAll_append, ← recorded]
    rfl
  · rw [SortedMap.insertAll_append]
    rfl

end Comparison

/-- A build that comes after another of the same index gives the same, under numbers that
are all higher by one distance. -/
theorem Index.Builds.again {index : Index} {run after : Run} {outcomes : List Outcome}
    (builds : index.Builds run outcomes after) (distance : Nat) (names : WrapperNames) :
    index.Builds (after.resumed (run.nextStub + distance) names)
      (View.shift distance • outcomes) (after.resumed (after.nextStub + distance) names) := by
  have simulates := Comparison.simulates_again index run after distance names
  have agree := simulates.outcomes (index.wanted run.config) (fun _ => List.mem_of_mem_filter)
    (Comparison.again_recordStrictness run after distance names)
  rcases second : (index.outcomes (index.wanted run.config)).run
    (after.resumed (run.nextStub + distance) names) with ⟨others, last⟩
  obtain ⟨⟨-, -, records, recorded, rfl⟩, same⟩ := agree.ends
    ⟨builds.le.config.symm, builds.le.package.symm, [], rfl, rfl⟩ builds second
    fun _ _ known => known
  rw [View.same_iff_of_fine rfl] at same
  have strictness : after.strictness.insertAll records = after.strictness := by
    rw [recorded, SortedMap.insertAll_insertAll]
  have config : (after.resumed (run.nextStub + distance) names).config = run.config :=
    builds.le.config
  unfold Builds
  rw [config, second, strictness]
  exact Prod.ext same.symm rfl

end NativeBindings
