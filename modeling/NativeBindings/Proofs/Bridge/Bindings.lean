import NativeBindings.Proofs.Bridge.Symbols
import NativeBindings.Proofs.Build.Library
import NativeBindings.Proofs.Native.Declared

namespace NativeBindings

/-! # What the bridge binds

A tree and its bridge table ask for symbols, one for each function that is called
through the bridge and one for each accessor in the table.  The bridge answers every
request with one binding, in order, and every wrapper in it has a name of its own.
-/

/-- What a symbol is asked for. -/
inductive Request where
  | call (stub : FunctionStub)
  | read (id : StubId) (getter : Getter)
  | write (id : StubId) (setter : Setter)

namespace Request

def id : Request → StubId
  | .call stub => stub.id
  | .read id _ | .write id _ => id

def symbol (package : String) : Request → String
  | .call stub => stubSymbol package stub.name "" stub.id
  | .read id getter => stubSymbol package getter.nativeName "_get" id
  | .write id setter => stubSymbol package setter.nativeName "_set" id

end Request

/-- The symbol that a function stub is linked to. -/
def FunctionStub.symbol? (package : String) (stub : FunctionStub) : Option String :=
  match stub.call with
  | .direct symbol => some symbol
  | .bridged => some (stubSymbol package stub.name "" stub.id)
  | .objcMessage => none

def FunctionStub.requests (stub : FunctionStub) : List Request :=
  if stub.call = .bridged then [.call stub] else []

def Library.requests (library : Library) : List Request :=
  library.stubs.allFunctions.flatMap (·.requests) ++
    library.table.getters.toList.map (fun entry => .read entry.1 entry.2) ++
    library.table.setters.toList.map (fun entry => .write entry.1 entry.2)

namespace SymbolTable

/-- The symbols with that of one more function. -/
def addFunction (package : String) (symbols : SymbolTable) (stub : FunctionStub) :
    SymbolTable :=
  match stub.symbol? package with
  | some symbol => { symbols with functions := symbols.functions.insert stub.id symbol }
  | none => symbols

def addGetter (package : String) (symbols : SymbolTable) (entry : StubId × Getter) : SymbolTable :=
  { symbols with
    getters := symbols.getters.insert entry.1
      ((Request.read entry.1 entry.2).symbol package) }

def addSetter (package : String) (symbols : SymbolTable) (entry : StubId × Setter) : SymbolTable :=
  { symbols with
    setters := symbols.setters.insert entry.1
      ((Request.write entry.1 entry.2).symbol package) }

end SymbolTable

/-- The symbols of a library. -/
def Library.symbols (library : Library) (package : String) : SymbolTable :=
  library.table.setters.toList.foldl (SymbolTable.addSetter package)
    (library.table.getters.toList.foldl (SymbolTable.addGetter package)
      (library.stubs.allFunctions.foldl (SymbolTable.addFunction package) {}))

/-- A binding that does what is asked for. -/
inductive Index.Fulfils (index : Index) (package : String) : Request → Binding → Prop
  | variadic {stub callable} : index.resolve stub = .ok callable → callable.isVariadic →
      Fulfils index package (.call stub)
        (.toFunction (stubSymbol package stub.name "" stub.id) callable.nativeName)
  | call {stub callable name} : index.resolve stub = .ok callable →
      callable.isVariadic = false →
      Fulfils index package (.call stub)
        (.toWrapper (stubSymbol package stub.name "" stub.id) (index.callWrapper callable name))
  | address {id getter name} : getter.isAggregate →
      Fulfils index package (.read id getter)
        (.toWrapper (stubSymbol package getter.nativeName "_get" id) (getter.addressWrapper name))
  | value {id getter name} : getter.isAggregate = false →
      Fulfils index package (.read id getter)
        (.toWrapper (stubSymbol package getter.nativeName "_get" id) (getter.valueWrapper name))
  | assign {id setter name} :
      Fulfils index package (.write id setter)
        (.toWrapper (stubSymbol package setter.nativeName "_set" id) (setter.wrapper name))

theorem Index.Fulfils.symbol {index : Index} {package : String} {request : Request}
    {binding : Binding} (fulfils : index.Fulfils package request binding) :
    binding.symbol = request.symbol package := by
  cases fulfils <;> rfl

theorem Index.map_symbol_of_fulfilled {index : Index} {package : String}
    {requests : List Request} {bindings : List Binding}
    (fulfilled : List.Forall₂ (index.Fulfils package) requests bindings) :
    bindings.map (·.symbol) = requests.map (·.symbol package) := by
  induction fulfilled with
  | nil => rfl
  | cons first _ ih => rw [List.map_cons, List.map_cons, first.symbol, ih]

def Binding.wrapperName? (binding : Binding) : Option String := binding.wrapper?.map (·.name)

/-- The names of wrappers that a run handed out between two of its states. -/
structure Run.Wrapped (run after : Run) (names : List String) : Prop where
  le : run ≤ after
  distinct : names.Nodup
  made : ∀ name ∈ names, ∃ number base, run.wrapperNames.next ≤ number ∧
    number < after.wrapperNames.next ∧
    name = (WrapperNames.mk run.wrapperNames.package number).name wrapperRole base

namespace Run.Wrapped

variable {run mid after : Run} {names more : List String}

theorem nil (le : run ≤ after) : run.Wrapped after [] := ⟨le, List.nodup_nil, nofun⟩

theorem one (run : Run) (base : String) :
    run.Wrapped ((Run.wrapperName wrapperRole base).run run).2
      [((Run.wrapperName wrapperRole base).run run).1] where
  le := Run.grows_wrapperName _ _ run
  distinct := List.pairwise_singleton _ _
  made name member := by
    cases List.mem_singleton.mp member
    exact ⟨_, base, Nat.le_refl _, Nat.lt_succ_self _, rfl⟩

theorem append (first : run.Wrapped mid names) (second : mid.Wrapped after more) :
    run.Wrapped after (names ++ more) where
  le := le_trans first.le second.le
  distinct := by
    refine List.nodup_append.mpr ⟨first.distinct, second.distinct, ?_⟩
    rintro name early _ late rfl
    obtain ⟨number, base, -, below, made⟩ := first.made name early
    obtain ⟨other, otherBase, above, -, again⟩ := second.made name late
    rw [first.le.wrapperPackage] at again
    have same := wrapperName_number (made.symm.trans again)
    omega
  made name member := by
    rcases List.mem_append.mp member with early | late
    · obtain ⟨number, base, above, below, made⟩ := first.made name early
      exact ⟨number, base, above, Nat.lt_of_lt_of_le below second.le.wrappers, made⟩
    · obtain ⟨number, base, above, below, made⟩ := second.made name late
      rw [first.le.wrapperPackage] at made
      exact ⟨number, base, Nat.le_trans first.le.wrappers above, below, made⟩

end Run.Wrapped

section Loops

variable {index : Index} {run : Run} {draft : BridgeDraft} {requests : List Request}
  {symbols : SymbolTable}

/-- From `run` on, a computation answers the requests behind a draft, and ends with the
given symbols. -/
def Index.Answered (index : Index) (compute : Binds BridgeDraft) (run : Run)
    (draft : BridgeDraft) (requests : List Request) (symbols : SymbolTable) : Prop :=
  ∃ bindings after, compute.run run = (.ok ⟨draft.bindings ++ bindings, symbols⟩, after) ∧
    List.Forall₂ (index.Fulfils run.package) requests bindings ∧
    run.Wrapped after (bindings.filterMap Binding.wrapperName?)

namespace Index.Answered

variable {compute : Binds BridgeDraft}

theorem pure : index.Answered (Pure.pure draft) run draft [] draft.symbols :=
  ⟨[], run, by rw [List.append_nil]; rfl, .nil, .nil le_rfl⟩

theorem bind {next : BridgeDraft → Binds BridgeDraft} {more : List Request} {last : SymbolTable}
    (first : index.Answered compute run draft requests symbols)
    (second : ∀ draft mid, draft.symbols = symbols → mid.package = run.package →
      index.Answered (next draft) mid draft more last) :
    index.Answered (compute >>= next) run draft (requests ++ more) last := by
  obtain ⟨bindings, mid, ends, fulfilled, wrapped⟩ := first
  obtain ⟨others, after, later, alsoFulfilled, alsoWrapped⟩ :=
    second ⟨draft.bindings ++ bindings, symbols⟩ mid rfl wrapped.le.package
  refine ⟨bindings ++ others, after, ?_, ?_, ?_⟩
  · rw [run_bind_ok ends, ← List.append_assoc]
    exact later
  · rw [wrapped.le.package] at alsoFulfilled
    exact List.rel_append fulfilled alsoFulfilled
  · rw [List.filterMap_append]
    exact wrapped.append alsoWrapped

/-- One request after the other. -/
theorem foldlM {ι : Type} {step : BridgeDraft → ι → Binds BridgeDraft}
    (change : String → SymbolTable → ι → SymbolTable) (requests : ι → List Request)
    {items : List ι}
    (each : ∀ item ∈ items, ∀ draft run, index.Answered (step draft item) run draft
      (requests item) (change run.package draft.symbols item)) :
    index.Answered (items.foldlM step draft) run draft (items.flatMap requests)
      (items.foldl (change run.package) draft.symbols) := by
  induction items generalizing draft run with
  | nil => exact .pure
  | cons item rest ih =>
      rw [List.foldlM_cons, List.flatMap_cons, List.foldl_cons]
      refine .bind (each item List.mem_cons_self draft run) fun next mid same package => ?_
      rw [← same, ← package]
      exact ih fun other member => each other (List.mem_cons_of_mem _ member)

end Index.Answered

namespace Index

/-- What a stub of the library calls is found again, with the signature that the stub
was made from.  No method takes further arguments. -/
theorem FunctionGiven.resolves {decl : Declaration} {stub : FunctionStub}
    (given : index.FunctionGiven run decl stub) (declared : decl ∈ index.declarations)
    (bridged : stub.call = .bridged) :
    ∃ callable, index.resolve stub = .ok callable ∧
      (callable.isVariadic → ∃ decl, callable = .function decl) ∧
      ∃ takesStrings, index.SignatureGiven run takesStrings callable.isVariadic
        callable.parameters callable.result stub.parameters stub.result := by
  cases given with
  | @function decl _ _ _ signature =>
      refine ⟨.function decl, ?_, fun _ => ⟨decl, rfl⟩, true, signature⟩
      simp [resolve, get?_of_mem_declarations_function declared]
  | @method decl number method _ found given =>
      have fixed : (Callable.method decl method).isVariadic = false := given.fixed
      refine ⟨.method decl method, ?_, fun variadic => ?_, false, ?_⟩
      · simp [resolve, given.origin, get?_of_mem_declarations_nativeClass declared, found]
      · cases fixed.symm.trans variadic
      · rw [fixed]
        exact given.signature
  | objcMethod given => cases given.call.symm.trans bridged

theorem answered_bindFunction {stub : FunctionStub}
    (resolves : stub.call = .bridged → ∃ callable, index.resolve stub = .ok callable) :
    index.Answered (index.bindFunction draft stub) run draft stub.requests
      (draft.symbols.addFunction run.package stub) := by
  unfold bindFunction FunctionStub.requests SymbolTable.addFunction FunctionStub.symbol?
  cases call : stub.call with
  | direct symbol =>
      exact ⟨[], run, rfl, .nil, .nil le_rfl⟩
  | objcMessage => exact .pure
  | bridged =>
      obtain ⟨callable, found⟩ := resolves call
      rw [found]
      dsimp only
      rw [if_pos rfl]
      cases variadic : callable.isVariadic with
      | true =>
          refine ⟨[.toFunction _ callable.nativeName], run, ?_,
            .cons (.variadic found variadic) .nil, .nil le_rfl⟩
          simp [bindCallable, variadic]
          rfl
      | false =>
          refine ⟨[.toWrapper _ (index.callWrapper callable _)], _, ?_,
            .cons (.call found variadic) .nil, .one run callable.nativeName⟩
          simp [bindCallable, variadic]
          rfl

theorem answered_bindGetter (entry : StubId × Getter) :
    index.Answered (liftM (bindGetter draft entry)) run draft [.read entry.1 entry.2]
      (draft.symbols.addGetter run.package entry) := by
  obtain ⟨id, getter⟩ := entry
  cases aggregate : getter.isAggregate with
  | true =>
      refine ⟨[.toWrapper _ (getter.addressWrapper _)], _, ?_,
        .cons (.address aggregate) .nil, .one run (getter.nativeName ++ "_pointer_getter")⟩
      simp [bindGetter, Getter.bind, aggregate]
      rfl
  | false =>
      refine ⟨[.toWrapper _ (getter.valueWrapper _)], _, ?_,
        .cons (.value aggregate) .nil, .one run (getter.nativeName ++ "_getter")⟩
      simp [bindGetter, Getter.bind, aggregate]
      rfl

theorem answered_bindSetter (entry : StubId × Setter) :
    index.Answered (liftM (bindSetter draft entry)) run draft [.write entry.1 entry.2]
      (draft.symbols.addSetter run.package entry) :=
  ⟨[.toWrapper _ (entry.2.wrapper _)], _, rfl, .cons .assign .nil,
    .one run (entry.2.nativeName ++ "_setter")⟩

theorem answered_functions {functions : List FunctionStub} (draft : BridgeDraft) (run : Run)
    (resolves : ∀ stub ∈ functions, stub.call = .bridged →
      ∃ callable, index.resolve stub = .ok callable) :
    index.Answered (functions.foldlM index.bindFunction draft) run draft
      (functions.flatMap (·.requests))
      (functions.foldl (SymbolTable.addFunction run.package) draft.symbols) :=
  .foldlM SymbolTable.addFunction FunctionStub.requests fun stub member _ _ =>
    answered_bindFunction (resolves stub member)

theorem answered_getters (entries : List (StubId × Getter)) (draft : BridgeDraft) (run : Run) :
    index.Answered (entries.foldlM (fun draft entry => liftM (bindGetter draft entry)) draft) run
      draft (entries.map fun entry => .read entry.1 entry.2)
      (entries.foldl (SymbolTable.addGetter run.package) draft.symbols) := by
  rw [List.map_eq_flatMap]
  exact .foldlM SymbolTable.addGetter _ fun entry _ _ _ => answered_bindGetter entry

theorem answered_setters (entries : List (StubId × Setter)) (draft : BridgeDraft) (run : Run) :
    index.Answered (entries.foldlM (fun draft entry => liftM (bindSetter draft entry)) draft) run
      draft (entries.map fun entry => .write entry.1 entry.2)
      (entries.foldl (SymbolTable.addSetter run.package) draft.symbols) := by
  rw [List.map_eq_flatMap]
  exact .foldlM SymbolTable.addSetter _ fun entry _ _ _ => answered_bindSetter entry

end Index

end Loops

namespace Index

variable {index : Index} {run : Run}

/-- The bridge never fails if every stub finds what it calls. -/
theorem bridge_run (library : Library)
    (resolves : ∀ stub ∈ library.stubs.allFunctions, stub.call = .bridged →
      ∃ callable, index.resolve stub = .ok callable) :
    ∃ bindings after, (index.bridge library.stubs library.table).run run =
        (.ok ⟨bindings, [{ stubs := library.stubs, symbols := library.symbols run.package }]⟩,
          after) ∧
      List.Forall₂ (index.Fulfils run.package) library.requests bindings ∧
      run.Wrapped after (bindings.filterMap Binding.wrapperName?) := by
  obtain ⟨calls, called, first, fulfilled, wrapped⟩ := answered_functions {} run resolves
  obtain ⟨reads, read, second, fulfilledReads, wrappedReads⟩ :=
    answered_getters library.table.getters.toList ⟨[] ++ calls, _⟩ called
  obtain ⟨writes, after, third, fulfilledWrites, wrappedWrites⟩ :=
    answered_setters library.table.setters.toList ⟨[] ++ calls ++ reads, _⟩ read
  -- Later loops read the package from later states, where it is still the same.
  rw [wrappedReads.le.package, wrapped.le.package] at third fulfilledWrites
  rw [wrapped.le.package] at second fulfilledReads
  refine ⟨calls ++ reads ++ writes, after, ?_, ?_, ?_⟩
  · unfold bridge
    rw [run_bind_ok first, run_bind_ok second, run_bind_ok third]
    rfl
  · exact List.rel_append (List.rel_append fulfilled fulfilledReads) fulfilledWrites
  · rw [List.filterMap_append, List.filterMap_append]
    exact (wrapped.append wrappedReads).append wrappedWrites

end Index

end NativeBindings
