import NativeBindings.Output.Generation
import NativeBindings.Proofs.Bridge.Session
import NativeBindings.Proofs.Build.Types

namespace NativeBindings

/-! # Excluded declarations

What the configuration excludes is not only missing from the output: it leaves no
trace.  An index without the excluded declarations takes a run the same way, step by
step, and the bridge finds the same functions in it.
-/

namespace DeclMap

variable {α : Type} {id : α → DeclId}

/-- The declarations of a table that are to be kept. -/
def filter (keep : α → Bool) (map : DeclMap id) : DeclMap id := ofList (map.values.filter keep)

@[simp] theorem values_filter (keep : α → Bool) (map : DeclMap id) :
    (map.filter keep).values = map.values.filter keep :=
  values_ofList ((List.filter_sublist.map id).nodup map.nodup_ids)

end DeclMap

namespace Index

variable {index other : Index}

section Reading

variable (index : Index)

@[simp] theorem passing_types (type : QualType) :
    index.types.passing type = index.passing type := by
  simp only [passing, canonicalType_types]

theorem callWrapper_types (callable : Callable) (name : String) :
    index.types.callWrapper callable name = index.callWrapper callable name := by
  have passed (position : Nat) (parameters : List Parameter) :
      index.types.passedParameters position parameters =
        index.passedParameters position parameters := by
    induction parameters generalizing position with
    | nil => rfl
    | cons parameter rest ih => simp only [passedParameters, passing_types, ih]
  simp only [callWrapper, passed, resultPassing, canonicalType_types, passing_types]

theorem bindCallable_types (callable : Callable) (symbol : String) :
    index.types.bindCallable callable symbol = index.bindCallable callable symbol := by
  simp only [bindCallable, callWrapper_types]

end Reading

/-- The bridge does the same for two indexes with the same types if every bridged function
finds the same in both. -/
theorem bridge_eq_of_types {stubs : StubTree} {table : BridgeTable}
    (same : other.types = index.types)
    (resolves : ∀ stub ∈ stubs.allFunctions, stub.call = .bridged →
      other.resolve stub = index.resolve stub) :
    other.bridge stubs table = index.bridge stubs table := by
  have bound (callable : Callable) (symbol : String) :
      other.bindCallable callable symbol = index.bindCallable callable symbol := by
    rw [← other.bindCallable_types, same, bindCallable_types]
  have each (draft : BridgeDraft) (stub : FunctionStub) (member : stub ∈ stubs.allFunctions) :
      other.bindFunction draft stub = index.bindFunction draft stub := by
    unfold bindFunction
    cases call : stub.call with
    | direct symbol => rfl
    | objcMessage => rfl
    | bridged => simp only [resolves stub member call, bound]
  have calls (functions : List FunctionStub) (draft : BridgeDraft)
      (part : ∀ stub ∈ functions, stub ∈ stubs.allFunctions) :
      functions.foldlM other.bindFunction draft = functions.foldlM index.bindFunction draft := by
    induction functions generalizing draft with
    | nil => rw [List.foldlM_nil, List.foldlM_nil]
    | cons stub rest ih =>
        simp only [List.foldlM_cons]
        rw [each draft stub (part stub List.mem_cons_self)]
        exact congrArg _ (funext fun next =>
          ih next fun later member => part later (List.mem_cons_of_mem _ member))
  unfold bridge
  rw [calls _ _ fun _ member => member]

section Wanted

variable {run : Run} (same : other.wanted run.config = index.wanted run.config)

include same

/-- Two indexes of which a build wants the same declarations are built alike. -/
theorem builds_iff_of_wanted {outcomes : List Outcome} {after : Run} :
    other.Builds run outcomes after ↔ index.Builds run outcomes after := by
  unfold Builds
  rw [outcomes_eq_of_types (types_eq_of_wanted same), same]

/-- What a wanted declaration gave calls the same in both indexes. -/
theorem resolve_eq_of_wanted {outcomes : List Outcome} {after : Run}
    (builds : index.Builds run outcomes after) {stub : FunctionStub}
    (member : stub ∈ (Library.ofOutcomes outcomes).stubs.allFunctions)
    (bridged : stub.call = .bridged) : other.resolve stub = index.resolve stub := by
  rw [(Library.allFunctions_ofOutcomes outcomes).mem_iff] at member
  obtain ⟨built, listed, inside⟩ := List.mem_flatMap.mp member
  obtain ⟨⟨decl, result⟩, attempted, isBuilt⟩ := List.mem_filterMap.mp listed
  cases result with
  | error error => cases isBuilt
  | ok given =>
      cases isBuilt
      have here : decl ∈ index.wanted run.config :=
        builds.listed ▸ List.mem_map_of_mem attempted
      have there : decl ∈ other.declarations := (List.mem_filter.mp (same ▸ here)).1
      replace here : decl ∈ index.declarations := (List.mem_filter.mp here).1
      cases (builds.gives attempted).functionGiven inside with
      | function =>
          simp [resolve, get?_of_mem_declarations_function here,
            get?_of_mem_declarations_function there]
      | method found given =>
          simp [resolve, given.origin, get?_of_mem_declarations_nativeClass here,
            get?_of_mem_declarations_nativeClass there]
      | objcMethod given => cases given.call.symm.trans bridged

/-- Two indexes of which a build wants the same declarations are linked alike. -/
theorem linked_run_of_wanted : other.linked.run run = index.linked.run run := by
  obtain ⟨outcomes, built, bindings, after, links⟩ := index.exists_links run
  obtain ⟨others, otherBuilt, otherBindings, otherAfter, otherLinks⟩ := other.exists_links run
  have builds : index.Builds run others otherBuilt :=
    (builds_iff_of_wanted same).mp otherLinks.builds
  cases links.builds.symm.trans builds
  have bridges := @bridge_eq_of_types _ _ _ (Library.ofOutcomes outcomes).table
    (types_eq_of_wanted same) fun _ => resolve_eq_of_wanted same links.builds
  have bridged := otherLinks.bridged
  rw [bridges, links.bridged] at bridged
  cases bridged
  rw [links.linked_run, otherLinks.linked_run]

end Wanted

/-- The index without the functions and macros that the configuration excludes. -/
def withoutExcluded (index : Index) (config : Config) : Index :=
  { index with
    functions := index.functions.filter (!config.excludedFunctions.contains ·.name)
    macroConstants := index.macroConstants.filter (!config.excludedMacros.contains ·.name)
    wrappedMacros := index.wrappedMacros.filter (!config.excludedMacros.contains ·.name) }

theorem wanted_withoutExcluded (index : Index) (config : Config) :
    (index.withoutExcluded config).wanted config = index.wanted config := by
  simp [wanted, withoutExcluded, declarations, List.filter_map, Function.comp_def,
    Config.excludes]

/-- Excluded declarations leave no trace: without them a run builds and links the same
library, with the same numbers, reports and symbols, it ends up in the same state, and so
the same files are generated. -/
theorem excluded_leave_no_trace (index : Index) (run : Run) (config : Config)
    (directory : String) (arrange : Arrangement) :
    (∃ library bridge after,
      index.linked.run run = (.ok (library, bridge), after) ∧
      (index.withoutExcluded run.config).linked.run run = (.ok (library, bridge), after)) ∧
    (index.withoutExcluded run.config).build.run run = index.build.run run ∧
    (index.withoutExcluded config).generate config directory arrange =
      index.generate config directory arrange := by
  have linked (run : Run) : (index.withoutExcluded run.config).linked.run run =
      index.linked.run run := linked_run_of_wanted (index.wanted_withoutExcluded run.config)
  refine ⟨?linked, ?built, ?generated⟩
  case linked =>
    obtain ⟨outcomes, built, bindings, after, links⟩ := index.exists_links run
    exact ⟨_, _, after, links.linked_run, (linked run).trans links.linked_run⟩
  case built =>
    obtain ⟨outcomes, after, builds⟩ := index.exists_builds run
    rw [builds.build_run,
      ((builds_iff_of_wanted (index.wanted_withoutExcluded run.config)).mpr builds).build_run]
  case generated =>
    obtain ⟨outcomes, built, bindings, after, links⟩ := index.exists_links (.start config)
    have whole := links.linked_run
    have part : (index.withoutExcluded config).linked.run (.start config) = _ :=
      (linked (.start config)).trans whole
    unfold generate generateIn
    rw [run_bind_ok whole, run_bind_ok part]
    rfl

end Index

end NativeBindings
