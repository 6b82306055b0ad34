import NativeBindings.Output.Generation
import NativeBindings.Proofs.Bridge.Frame
import NativeBindings.Proofs.Bridge.Session
import NativeBindings.Proofs.Build.Compared
import NativeBindings.Proofs.Mapping.Native

namespace NativeBindings

/-! # The native side of a library

What is generated to be compiled with the native code is the same on every platform and
in either mode.  Two builds whose configurations differ in nothing else give stubs with
the same numbers in the same places, and the bridge reads nothing of them in which they
differ.
-/

namespace StubTree

mutual

theorem allFunctions_smul (view : View) :
    (tree : StubTree) → (view • tree).allFunctions = view • tree.allFunctions
  | ⟨classes, functions, properties, typealiases, groups⟩ => by
      have members : (view • classes).flatMap (·.functions) =
          view • classes.flatMap (·.functions) := by
        simp only [View.smul_list, List.flatMap_map, List.map_flatMap]
        rfl
      rw [smul_mk, allFunctions, allFunctions, View.smul_append, View.smul_append, members,
        groupFunctions_smul view groups]

theorem groupFunctions_smul (view : View) : (groups : List StubGroup) →
    groupFunctions (view • groups) = view • groupFunctions groups
  | [] => rfl
  | ⟨id, name, members⟩ :: rest => by
      rw [View.smul_cons, StubGroup.smul_mk, groupFunctions, groupFunctions, View.smul_append,
        allFunctions_smul view members, groupFunctions_smul view rest]

end

end StubTree

namespace Index

variable {index : Index}

/-- The bridge reads nothing of stubs but their numbers and what is native about them. -/
theorem bridge_smul (index : Index) {view : View} (unmoved : ∀ id : StubId, view • id = id)
    (stubs : StubTree) (table : BridgeTable) :
    index.bridge (view • stubs) (view • table) = (do
      let bridge ← index.bridge stubs table
      pure { bridge with
        modules := bridge.modules.map fun unit => { unit with stubs := view • unit.stubs } }) := by
  have function (draft : BridgeDraft) (stub : FunctionStub) :
      index.bindFunction draft (view • stub) = index.bindFunction draft stub := by
    obtain ⟨id, name, parameters, result, origin, call, receiver, isStatic⟩ := stub
    rw [FunctionStub.smul_mk, unmoved]
    rfl
  have getter (draft : BridgeDraft) (entry : StubId × Getter) :
      bindGetter draft (view • entry.1, view • entry.2) = bindGetter draft entry := by
    obtain ⟨id, name, type, representation, isAggregate⟩ := entry
    rw [Getter.smul_mk, unmoved]
    rfl
  have setter (draft : BridgeDraft) (entry : StubId × Setter) :
      bindSetter draft (view • entry.1, view • entry.2) = bindSetter draft entry := by
    obtain ⟨id, name, type, representation⟩ := entry
    rw [Setter.smul_mk, unmoved]
    rfl
  have getters : (view • table).getters.toList =
      table.getters.toList.map fun entry => (view • entry.1, view • entry.2) :=
    SortedMap.toList_relabel view.ascends_id _ _
  have setters : (view • table).setters.toList =
      table.setters.toList.map fun entry => (view • entry.1, view • entry.2) :=
    SortedMap.toList_relabel view.ascends_id _ _
  unfold bridge
  rw [StubTree.allFunctions_smul, View.smul_list, getters, setters]
  simp only [List.foldlM_map, function, getter, setter, bind_assoc, pure_bind]
  rfl

/-- What comes of a generation, if a library is linked like this. -/
theorem Links.generate_eq {config : Config} {outcomes : List Outcome} {built after : Run}
    {bindings : List Binding} (links : index.Links (.start config) outcomes built bindings after)
    (directory : String) (arrange : Arrangement) :
    ∃ generation, index.generate config directory arrange = .ok generation ∧
      generation.bridgeFile = {
        path := joinPath directory (bridgeFileName config.effectivePackage)
        text := bridgeFile (index.preamble ++ config.extraPreamble) (bindings.flatMap (·.lines))
          config.entryPoint } := by
  have le := le_trans links.builds.le links.wrapped.le
  unfold generate generateIn
  rw [run_bind_ok links.linked_run]
  refine ⟨_, rfl, ?_⟩
  change OutputFile.mk _ _ = _
  rw [le.package, le.config]
  rfl

/-- After the build, linking takes names for wrappers and nothing else. -/
theorem Links.frame {run built after : Run} {outcomes : List Outcome} {bindings : List Binding}
    (links : index.Links run outcomes built bindings after) :
    after = { built with wrapperNames := after.wrapperNames } := by
  have names := index.namesWrappers_bridge (Library.ofOutcomes outcomes).stubs
    (Library.ofOutcomes outcomes).table
  have frame := names.frame built
  have ends : (StateT.run (index.bridge (Library.ofOutcomes outcomes).stubs
    (Library.ofOutcomes outcomes).table).run built).2 = after := congrArg Prod.snd links.bridged
  rwa [ends] at frame

/-- Blurred stubs are bridged like those that they are made from. -/
private theorem Links.bridged_blurred {run built after : Run} {outcomes : List Outcome}
    {bindings : List Binding} (links : index.Links run outcomes built bindings after) :
    (index.bridge (View.blurred • (Library.ofOutcomes outcomes).stubs)
        (View.blurred • (Library.ofOutcomes outcomes).table)).run built =
      (.ok ⟨bindings, [{
        stubs := View.blurred • (Library.ofOutcomes outcomes).stubs
        symbols := (Library.ofOutcomes outcomes).symbols built.package }]⟩, after) := by
  rw [index.bridge_smul fun _ => rfl, run_bind_ok links.bridged]
  rfl

/-- Twins link libraries that are one to native code, and stay twins. -/
theorem Links.twins {config : Config} {platform : Platform} {mode : Mode}
    {outcomes others : List Outcome} {built after otherBuilt last : Run}
    {bindings otherBindings : List Binding}
    (links : index.Links (.start config) outcomes built bindings after)
    (otherLinks : index.Links (.start { config with platform, mode }) others otherBuilt
      otherBindings last) :
    View.blurred • Library.ofOutcomes others = View.blurred • Library.ofOutcomes outcomes ∧
      otherBindings = bindings ∧
      (Library.ofOutcomes others).symbols otherBuilt.package =
        (Library.ofOutcomes outcomes).symbols built.package ∧
      after.Twins last := by
  have simulates := Comparison.simulates_ofTwins index
  have agree := simulates.outcomes (index.wanted config) (fun _ => List.mem_of_mem_filter)
    fun name strict => by
      refine ⟨Run.grows_recordStrictness name strict, fun first second twins _ => ⟨?_, rfl⟩⟩
      exact ⟨twins.config, twins.package, twins.nextStub, twins.wrapperNames, twins.hasName⟩
  obtain ⟨twins, same⟩ := agree.ends (Run.twins_start config platform mode) links.builds
    otherLinks.builds trivial
  have libraries : View.blurred • Library.ofOutcomes others =
      View.blurred • Library.ofOutcomes outcomes := by
    rw [Library.smul_ofOutcomes, Library.smul_ofOutcomes]
    exact congrArg Library.ofOutcomes same.symm
  have stubs : View.blurred • (Library.ofOutcomes others).stubs =
      View.blurred • (Library.ofOutcomes outcomes).stubs := congrArg Library.stubs libraries
  have table : View.blurred • (Library.ofOutcomes others).table =
      View.blurred • (Library.ofOutcomes outcomes).table := congrArg Library.table libraries
  -- Both bridges are that of the blurred library, and it only matters which names are left.
  have bridged := links.bridged_blurred
  have bridgedAgain := otherLinks.bridged_blurred
  rw [stubs, table] at bridgedAgain
  have names := index.namesWrappers_bridge (View.blurred • (Library.ofOutcomes outcomes).stubs)
    (View.blurred • (Library.ofOutcomes outcomes).table)
  have again := (names built).2 otherBuilt twins.package twins.wrapperNames
  change (index.bridge _ _).run otherBuilt = (((index.bridge _ _).run built).1,
    { otherBuilt with wrapperNames := ((index.bridge _ _).run built).2.wrapperNames }) at again
  rw [bridged, bridgedAgain] at again
  obtain ⟨values, rfl⟩ := Prod.mk.inj again
  obtain ⟨sameBindings, modules⟩ := Bridge.mk.inj (Except.ok.inj values)
  obtain ⟨-, -, symbols⟩ := BindingModule.mk.inj (List.cons.inj modules).1
  refine ⟨libraries, sameBindings, symbols, ?_, ?_, ?_, rfl, ?_⟩
  · rw [links.wrapped.le.config]
    exact twins.config
  · exact twins.package.trans links.wrapped.le.package.symm
  · exact twins.nextStub.trans (congrArg Run.nextStub links.frame).symm
  · exact twins.hasName.trans (congrArg Run.hasName links.frame).symm

/-- Nothing native depends on the platform or the mode.  Under two configurations that differ
in these only, a type has a representation under both or under neither, and passed in the
same way it stands for the same kind of value, signs of integers aside; the same declarations
are reported; the stubs and the bridge tables are the same, numbers and native names
included, but for what types are called and for signs; and the bindings, the symbols and the
bridge file are the same. -/
theorem native_side_independent (index : Index) (config : Config) (platform : Platform)
    (mode : Mode) (directory : String) (arrange : Arrangement) :
    let other := { config with platform, mode }
    (∀ type, ((index.represent type).run (.start other)).1.map Representation.nativeSide =
      ((index.represent type).run (.start config)).1.map Representation.nativeSide) ∧
    ∃ library bridge after generation again bridgeAgain last regeneration,
      index.linked.run (.start config) = (.ok (library, bridge), after) ∧
      index.linked.run (.start other) = (.ok (again, bridgeAgain), last) ∧
      again.skipped = library.skipped ∧
      View.blurred • again.stubs = View.blurred • library.stubs ∧
      View.blurred • again.table = View.blurred • library.table ∧
      bridgeAgain.lines = bridge.lines ∧
      bridgeAgain.modules.map (·.symbols) = bridge.modules.map (·.symbols) ∧
      (index.KindsApart → ∀ type,
        ((index.represent type).run last).1.map Representation.nativeSide =
          ((index.represent type).run after).1.map Representation.nativeSide) ∧
      index.generate config directory arrange = .ok generation ∧
      index.generate other directory arrange = .ok regeneration ∧
      regeneration.bridgeFile = generation.bridgeFile := by
  intro other
  refine ⟨?types, ?linked⟩
  case types =>
    exact nativeSide_of_twins (Run.twins_start config platform mode) (index.ownsEnums_start config)
      (index.ownsEnums_start other)
  case linked =>
    obtain ⟨outcomes, built, bindings, after, links⟩ := index.exists_links (.start config)
    obtain ⟨others, otherBuilt, otherBindings, last, otherLinks⟩ :=
      index.exists_links (.start other)
    obtain ⟨libraries, rfl, symbols, twins⟩ := links.twins otherLinks
    obtain ⟨generation, generates, file⟩ := links.generate_eq directory arrange
    obtain ⟨regeneration, regenerates, fileAgain⟩ := otherLinks.generate_eq directory arrange
    refine ⟨_, _, after, generation, _, _, last, regeneration, links.linked_run,
      otherLinks.linked_run, ?_, congrArg Library.stubs libraries,
      congrArg Library.table libraries, rfl, ?_, ?_, generates, regenerates,
      fileAgain.trans file.symm⟩
    · exact (congrArg Library.skipped libraries :)
    · exact congrArg (fun symbols => [symbols]) symbols
    · intro apart
      have owns {config : Config} {outcomes : List Outcome} {built after : Run}
          {bindings : List Binding}
          (links : index.Links (.start config) outcomes built bindings after) :
          index.OwnsEnums after := by
        have kept := (keeping_ownsEnums apart).builds links.builds (index.ownsEnums_start config)
        rw [links.frame]
        exact kept
      exact nativeSide_of_twins twins (owns links) (owns otherLinks)

end Index

end NativeBindings
