import NativeBindings.Output.Generation
import NativeBindings.Proofs.Bridge.Bindings

namespace NativeBindings

/-! # Symbols of a library

The symbol table has an entry for exactly those stubs that are reached through a
symbol, and no two symbols that the bridge has to bind are alike: each holds its
stub's number, and says whether the stub is called, read or written.
-/

namespace SymbolTable

section Fields

variable {ι : Type} {step : SymbolTable → ι → SymbolTable}
  (field : SymbolTable → SortedMap StubId String) {key : ι → StubId} {value? : ι → Option String}
  {items : List ι} {symbols : SymbolTable}

private theorem field_foldl (keeps : ∀ symbols item, field (step symbols item) = field symbols) :
    field (items.foldl step symbols) = field symbols := by
  induction items generalizing symbols with
  | nil => rfl
  | cons item rest ih => exact ih.trans (keeps symbols item)

variable (stores : ∀ symbols item wanted, (field (step symbols item)).get? wanted =
    if key item = wanted then (value? item).or ((field symbols).get? wanted)
    else (field symbols).get? wanted)

include stores

private theorem get?_foldl_of_not_mem {wanted : StubId} (absent : wanted ∉ items.map key) :
    (field (items.foldl step symbols)).get? wanted = (field symbols).get? wanted := by
  induction items generalizing symbols with
  | nil => rfl
  | cons item rest ih =>
      rw [List.map_cons, List.mem_cons, not_or] at absent
      rw [List.foldl_cons, ih absent.2, stores, if_neg (Ne.symm absent.1)]

private theorem get?_foldl_of_mem (distinct : (items.map key).Nodup) {item : ι}
    (member : item ∈ items) (fresh : (field symbols).get? (key item) = none) :
    (field (items.foldl step symbols)).get? (key item) = value? item := by
  induction items generalizing symbols with
  | nil => cases member
  | cons head rest ih =>
      rw [List.map_cons, List.nodup_cons] at distinct
      rcases List.mem_cons.mp member with rfl | later
      · rw [List.foldl_cons, get?_foldl_of_not_mem field stores distinct.1, stores, if_pos rfl,
          fresh, Option.or_none]
      · have other : key head ≠ key item := fun same =>
          distinct.1 (same ▸ List.mem_map_of_mem later)
        refine ih distinct.2 later ?_
        rw [stores, if_neg other, fresh]

end Fields

variable {package : String}

private theorem stores_function (symbols : SymbolTable) (stub : FunctionStub) (wanted : StubId) :
    (symbols.addFunction package stub).functions.get? wanted =
      if stub.id = wanted then (stub.symbol? package).or (symbols.functions.get? wanted)
      else symbols.functions.get? wanted := by
  unfold addFunction
  cases stub.symbol? package with
  | some symbol => simp [SortedMap.get?_insert]
  | none => simp

private theorem stores_getter (symbols : SymbolTable) (entry : StubId × Getter)
    (wanted : StubId) :
    (symbols.addGetter package entry).getters.get? wanted =
      if entry.1 = wanted then
        (some ((Request.read entry.1 entry.2).symbol package)).or (symbols.getters.get? wanted)
      else symbols.getters.get? wanted := by
  simp [addGetter, SortedMap.get?_insert]

private theorem stores_setter (symbols : SymbolTable) (entry : StubId × Setter)
    (wanted : StubId) :
    (symbols.addSetter package entry).setters.get? wanted =
      if entry.1 = wanted then
        (some ((Request.write entry.1 entry.2).symbol package)).or (symbols.setters.get? wanted)
      else symbols.setters.get? wanted := by
  simp [addSetter, SortedMap.get?_insert]

private theorem keeps_function (symbols : SymbolTable) (stub : FunctionStub) :
    (symbols.addFunction package stub).getters = symbols.getters ∧
      (symbols.addFunction package stub).setters = symbols.setters := by
  unfold addFunction
  cases stub.symbol? package <;> exact ⟨rfl, rfl⟩

end SymbolTable

namespace Library

variable {library : Library} {package : String}

variable (library package) in
/-- The symbols after the first loop, and after the second. -/
private theorem symbols_parts :
    let called := library.stubs.allFunctions.foldl (SymbolTable.addFunction package) {}
    let read := library.table.getters.toList.foldl (SymbolTable.addGetter package) called
    called.getters = ∅ ∧ called.setters = ∅ ∧ read.functions = called.functions ∧
      read.setters = called.setters ∧ (library.symbols package).functions = read.functions ∧
      (library.symbols package).getters = read.getters :=
  ⟨SymbolTable.field_foldl (·.getters) fun symbols stub =>
      (SymbolTable.keeps_function symbols stub).1,
    SymbolTable.field_foldl (·.setters) fun symbols stub =>
      (SymbolTable.keeps_function symbols stub).2,
    SymbolTable.field_foldl (·.functions) fun _ _ => rfl,
    SymbolTable.field_foldl (·.setters) fun _ _ => rfl,
    SymbolTable.field_foldl (·.functions) fun _ _ => rfl,
    SymbolTable.field_foldl (·.getters) fun _ _ => rfl⟩

/-- A function's symbol is that by which it is called. -/
theorem get?_functions (distinct : (library.stubs.allFunctions.map (·.id)).Nodup)
    {stub : FunctionStub} (member : stub ∈ library.stubs.allFunctions) :
    (library.symbols package).functions.get? stub.id = stub.symbol? package := by
  obtain ⟨-, -, read, -, whole, -⟩ := symbols_parts library package
  rw [whole, read]
  exact SymbolTable.get?_foldl_of_mem (·.functions) SymbolTable.stores_function distinct member rfl

/-- Nothing but functions of the tree has a function symbol. -/
theorem exists_of_get?_functions {id : StubId} {symbol : String}
    (found : (library.symbols package).functions.get? id = some symbol) :
    ∃ stub ∈ library.stubs.allFunctions, stub.id = id := by
  obtain ⟨-, -, read, -, whole, -⟩ := symbols_parts library package
  rw [whole, read] at found
  by_cases known : id ∈ library.stubs.allFunctions.map (·.id)
  · exact List.mem_map.mp known
  · rw [SymbolTable.get?_foldl_of_not_mem (·.functions) SymbolTable.stores_function known] at found
    cases found

theorem get?_getters (id : StubId) :
    (library.symbols package).getters.get? id =
      (library.table.getters.get? id).map fun getter =>
        (Request.read id getter).symbol package := by
  obtain ⟨start, -, -, -, -, whole⟩ := symbols_parts library package
  rw [whole]
  cases found : library.table.getters.get? id with
  | none =>
      have absent := valueOf?_eq_none_iff.mp found
      refine Eq.trans (SymbolTable.get?_foldl_of_not_mem (·.getters) SymbolTable.stores_getter
        absent) ?_
      rw [start]
      rfl
  | some getter =>
      refine SymbolTable.get?_foldl_of_mem (·.getters) SymbolTable.stores_getter
        library.table.getters.nodup_keys (mem_of_valueOf? found) ?_
      rw [start]
      rfl

theorem get?_setters (id : StubId) :
    (library.symbols package).setters.get? id =
      (library.table.setters.get? id).map fun setter =>
        (Request.write id setter).symbol package := by
  obtain ⟨-, start, -, read, -⟩ := symbols_parts library package
  unfold Library.symbols
  cases found : library.table.setters.get? id with
  | none =>
      have absent := valueOf?_eq_none_iff.mp found
      refine Eq.trans (SymbolTable.get?_foldl_of_not_mem (·.setters) SymbolTable.stores_setter
        absent) ?_
      rw [read, start]
      rfl
  | some setter =>
      refine SymbolTable.get?_foldl_of_mem (·.setters) SymbolTable.stores_setter
        library.table.setters.nodup_keys (mem_of_valueOf? found) ?_
      rw [read, start]
      rfl

end Library

theorem FunctionStub.mem_requests {stub : FunctionStub} {request : Request} :
    request ∈ stub.requests ↔ stub.call = .bridged ∧ request = .call stub := by
  unfold requests
  split <;> simp [*]

theorem Library.mem_requests {library : Library} {request : Request} :
    request ∈ library.requests ↔
      (∃ stub ∈ library.stubs.allFunctions, stub.call = .bridged ∧ request = .call stub) ∨
      (∃ entry ∈ library.table.getters.toList, request = .read entry.1 entry.2) ∨
      ∃ entry ∈ library.table.setters.toList, request = .write entry.1 entry.2 := by
  simp only [requests, List.mem_append, List.mem_flatMap, FunctionStub.mem_requests, List.mem_map,
    or_assoc, eq_comm]

/-- A symbol holds the number of the stub for which it is asked. -/
theorem Request.id_of_symbol {first second : Request} {package other : String}
    (same : first.symbol package = second.symbol other) : first.id = second.id := by
  cases first <;> cases second <;> exact (stubSymbol_split same).1

theorem Request.isIdentifier_symbol (package : String) (request : Request) :
    IsIdentifier (request.symbol package) := by
  cases request <;> exact isIdentifier_stubSymbol _ _ rfl _

namespace Index.Builds

variable {index : Index} {run after : Run} {outcomes : List Outcome}
  (builds : index.Builds run outcomes after)

include builds

theorem resolves {stub : FunctionStub}
    (member : stub ∈ (Library.ofOutcomes outcomes).stubs.allFunctions)
    (bridged : stub.call = .bridged) : ∃ callable, index.resolve stub = .ok callable ∧
      (callable.isVariadic → ∃ decl, callable = .function decl) := by
  obtain ⟨decl, declared, given⟩ := builds.functionGiven member
  obtain ⟨callable, found, variadic, -⟩ := given.resolves declared bridged
  exact ⟨callable, found, variadic⟩

theorem nodup_memberIds :
    ((Library.ofOutcomes outcomes).stubs.allFunctions.map (·.id) ++
      (Library.ofOutcomes outcomes).stubs.allProperties.map (·.id)).Nodup := by
  obtain ⟨kept, same, sublist⟩ := (Library.ofOutcomes outcomes).stubs.memberIds_subperm
  exact same.nodup (builds.numbered.distinct.sublist sublist)

theorem getter_mem_properties {entry : StubId × Getter}
    (member : entry ∈ (Library.ofOutcomes outcomes).table.getters.toList) :
    entry.1 ∈ (Library.ofOutcomes outcomes).stubs.allProperties.map (·.id) := by
  obtain ⟨stub, listed, same, -⟩ := builds.mem_getters.mp (List.mem_map_of_mem member)
  exact List.mem_map.mpr ⟨stub, listed, same⟩

theorem setter_mem_properties {entry : StubId × Setter}
    (member : entry ∈ (Library.ofOutcomes outcomes).table.setters.toList) :
    entry.1 ∈ (Library.ofOutcomes outcomes).stubs.allProperties.map (·.id) := by
  obtain ⟨stub, listed, same, -⟩ := builds.mem_setters.mp (List.mem_map_of_mem member)
  exact List.mem_map.mpr ⟨stub, listed, same⟩

theorem request_id {request : Request}
    (member : request ∈ (Library.ofOutcomes outcomes).requests) :
    request.id ∈ (Library.ofOutcomes outcomes).stubs.ids := by
  refine (Library.ofOutcomes outcomes).stubs.memberIds_subperm.subset (List.mem_append.mpr ?_)
  rcases Library.mem_requests.mp member with
    ⟨stub, listed, -, rfl⟩ | ⟨entry, listed, rfl⟩ | ⟨entry, listed, rfl⟩
  · exact .inl (List.mem_map_of_mem listed)
  · exact .inr (builds.getter_mem_properties listed)
  · exact .inr (builds.setter_mem_properties listed)

/-- No two requests are for the same symbol. -/
theorem nodup_symbols (package : String) :
    ((Library.ofOutcomes outcomes).requests.map (·.symbol package)).Nodup := by
  obtain ⟨functions, -, disjoint⟩ := List.nodup_append.mp builds.nodup_memberIds
  have different {first second : Request} (other : first.id ≠ second.id) :
      first.symbol package ≠ second.symbol package := fun same => other (Request.id_of_symbol same)
  have apart {call property : Request}
      (called : call ∈ (Library.ofOutcomes outcomes).stubs.allFunctions.flatMap (·.requests))
      (accessed : property.id ∈ (Library.ofOutcomes outcomes).stubs.allProperties.map (·.id)) :
      call.symbol package ≠ property.symbol package := by
    obtain ⟨stub, listed, inside⟩ := List.mem_flatMap.mp called
    obtain ⟨-, rfl⟩ := FunctionStub.mem_requests.mp inside
    exact different (disjoint _ (List.mem_map_of_mem listed) _ accessed)
  -- Only a getter and a setter may be for one stub; all else differs by its number.
  rw [List.Nodup, List.pairwise_map, Library.requests, List.pairwise_append, List.pairwise_append]
  refine ⟨⟨?calls, ?reads, ?callsAndReads⟩, ?writes, ?others⟩
  case calls =>
    refine List.pairwise_flatMap.mpr ⟨fun stub _ => ?_, ?_⟩
    · unfold FunctionStub.requests
      split <;> simp
    · refine (List.pairwise_map.mp functions).imp fun {stub other} ids first here second there => ?_
      obtain ⟨-, rfl⟩ := FunctionStub.mem_requests.mp here
      obtain ⟨-, rfl⟩ := FunctionStub.mem_requests.mp there
      exact different ids
  case reads =>
    refine List.pairwise_map.mpr ?_
    exact (List.pairwise_map.mp (SortedMap.nodup_keys _)).imp fun ids => different ids
  case writes =>
    refine List.pairwise_map.mpr ?_
    exact (List.pairwise_map.mp (SortedMap.nodup_keys _)).imp fun ids => different ids
  case callsAndReads =>
    intro call called read isRead
    obtain ⟨entry, listed, rfl⟩ := List.mem_map.mp isRead
    exact apart called (builds.getter_mem_properties listed)
  case others =>
    intro request asked write isWrite
    obtain ⟨setter, written, rfl⟩ := List.mem_map.mp isWrite
    rcases List.mem_append.mp asked with called | isRead
    · exact apart called (builds.setter_mem_properties written)
    · obtain ⟨getter, -, rfl⟩ := List.mem_map.mp isRead
      exact getter_ne_setter

end Index.Builds

namespace Index

/-- From `run` on, a build leads to these outcomes, and the bridge for the library to
these bindings. -/
structure Links (index : Index) (run : Run) (outcomes : List Outcome) (built : Run)
    (bindings : List Binding) (after : Run) : Prop where
  builds : index.Builds run outcomes built
  bridged : (index.bridge (Library.ofOutcomes outcomes).stubs
      (Library.ofOutcomes outcomes).table).run built =
    (.ok ⟨bindings, [{
      stubs := (Library.ofOutcomes outcomes).stubs
      symbols := (Library.ofOutcomes outcomes).symbols built.package }]⟩, after)
  fulfilled : List.Forall₂ (index.Fulfils built.package) (Library.ofOutcomes outcomes).requests
    bindings
  wrapped : built.Wrapped after (bindings.filterMap Binding.wrapperName?)

theorem exists_links (index : Index) (run : Run) : ∃ outcomes built bindings after,
    index.Links run outcomes built bindings after := by
  obtain ⟨outcomes, built, builds⟩ := index.exists_builds run
  obtain ⟨bindings, after, bridged, fulfilled, wrapped⟩ :=
    bridge_run (Library.ofOutcomes outcomes) fun _ member bridged =>
      (builds.resolves member bridged).imp fun _ => And.left
  exact ⟨outcomes, built, bindings, after, builds, bridged, fulfilled, wrapped⟩

end Index

end NativeBindings
