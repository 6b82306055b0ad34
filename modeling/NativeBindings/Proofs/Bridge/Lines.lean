import NativeBindings.Proofs.Bridge.Declarators
import NativeBindings.Proofs.Bridge.Linkage

namespace NativeBindings

/-! # Lines of native code

The line that binds a symbol begins like no line of a wrapper but its head, and the
head ends otherwise.  So the lines that bind symbols are those that the bindings end
in.
-/

/-- Does a line make a function known to the linker under a symbol? -/
def BindsTo (symbol function line : String) : Prop :=
  line = "const void* " ++ symbol ++ " __asm(\"" ++ symbol ++ "\") = (const void*) &" ++
    function ++ ";"

/-- Does a line bind a symbol? -/
def BindsSymbol (symbol line : String) : Prop := ∃ function, BindsTo symbol function line

theorem BindsTo.toList {symbol function line : String} (binds : BindsTo symbol function line) :
    line.toList =
      "const void* ".toList ++ (symbol.toList ++ ' ' :: ("__asm(\"".toList ++ (symbol.toList ++
        ("\") = (const void*) &".toList ++ (function.toList ++ ";".toList))))) := by
  rw [BindsTo] at binds
  subst binds
  simp only [String.toList_append, List.append_assoc]
  rfl

theorem BindsSymbol.head {symbol line : String} (binds : BindsSymbol symbol line) :
    line.toList.head? = some 'c' := by
  obtain ⟨function, binds⟩ := binds
  rw [binds.toList]
  rfl

theorem BindsSymbol.last {symbol line : String} (binds : BindsSymbol symbol line) :
    line.toList.getLast? = some ';' := by
  obtain ⟨function, rfl⟩ := binds
  rw [String.toList_append, List.getLast?_append]
  rfl

/-- A symbol ends at the first blank behind it. -/
theorem BindsSymbol.unique {symbol other line : String} (binds : BindsSymbol symbol line)
    (alsoBinds : BindsSymbol other line) (plain : ' ' ∉ symbol.toList)
    (alsoPlain : ' ' ∉ other.toList) : symbol = other := by
  obtain ⟨function, binds⟩ := binds
  obtain ⟨target, alsoBinds⟩ := alsoBinds
  have behind := List.append_cancel_left (binds.toList.symm.trans alsoBinds.toList)
  exact String.toList_inj.mp (split_at_first behind plain alsoPlain).1

theorem Wrapper.not_bindsSymbol {wrapper : Wrapper} {line : String}
    (member : line ∈ wrapper.lines) (symbol : String) : ¬ BindsSymbol symbol line := by
  intro binds
  have head := binds.head
  have last := binds.last
  simp only [Wrapper.lines, List.mem_cons, List.not_mem_nil, or_false] at member
  rcases member with rfl | rfl | rfl | rfl
  · exact absurd head (by decide)
  · rw [String.toList_append, List.getLast?_append] at last
    have ends : some '{' = some ';' := last
    exact absurd ends (by decide)
  · rw [String.toList_append, List.head?_append] at head
    have starts : some ' ' = some 'c' := head
    exact absurd starts (by decide)
  · exact absurd head (by decide)

/-- A symbol is bound to a function in the line right behind a definition, and in no other
line. -/
def BoundBehind (definition : List String) (symbol function : String) (lines : List String) :
    Prop :=
  ∃ before binding after, lines = before ++ definition ++ binding :: after ∧
    BindsTo symbol function binding ∧
    ∀ line ∈ before ++ definition ++ after, ¬BindsSymbol symbol line

/-- A symbol is bound to a wrapper right behind the wrapper's definition: an attribute, a
head that declares the function, its only statement, and a brace. -/
def Wrapper.BoundIn (wrapper : Wrapper) (symbol : String) (lines : List String) : Prop :=
  ∃ head,
    Declares wrapper.result
      (wrapper.name ++ "(" ++ String.intercalate ", " wrapper.parameters ++ ")") head ∧
    BoundBehind
      ["__attribute__((always_inline))", head ++ " \x7b", "    " ++ wrapper.statement, "\x7d"]
      symbol wrapper.name lines

theorem Wrapper.boundIn {wrapper : Wrapper} {symbol : String} {lines : List String}
    (bound : BoundBehind wrapper.lines symbol wrapper.name lines) :
    wrapper.BoundIn symbol lines :=
  ⟨_, declares_declare _ _, bound⟩

namespace Binding

/-- The function that a symbol is bound to. -/
def function : Binding → String
  | .toFunction _ function => function
  | .toWrapper _ wrapper => wrapper.name

/-- The lines in which that function is defined, if it is a wrapper. -/
def definition (binding : Binding) : List String := binding.wrapper?.toList.flatMap (·.lines)

theorem lines_eq (binding : Binding) :
    binding.lines = binding.definition ++ [bindSymbol binding.symbol binding.function] := by
  cases binding with
  | toFunction => rfl
  | toWrapper => simp [lines, definition, wrapper?, Binding.symbol, function]

/-- Only the last line of a binding binds a symbol. -/
theorem line_of_bindsSymbol {binding : Binding} {line symbol : String}
    (member : line ∈ binding.lines) (binds : BindsSymbol symbol line) :
    line = bindSymbol binding.symbol binding.function := by
  rw [lines_eq, List.mem_append, List.mem_singleton] at member
  rcases member with inside | last
  · obtain ⟨wrapper, -, written⟩ := List.mem_flatMap.mp inside
    exact absurd binds (Wrapper.not_bindsSymbol written symbol)
  · exact last

/-- The last line of a binding stands right behind the definition, and binds a symbol that
the others do not bind. -/
theorem boundBehind_of_mem {bindings : List Binding} {binding : Binding}
    (member : binding ∈ bindings) (distinct : (bindings.map symbol).Nodup)
    (plain : ∀ other ∈ bindings, ' ' ∉ other.symbol.toList) :
    BoundBehind binding.definition binding.symbol binding.function (bindings.flatMap lines) := by
  obtain ⟨before, after, rfl⟩ := List.append_of_mem member
  rw [List.map_append, List.map_cons, List.perm_middle.nodup_iff, List.nodup_cons,
    ← List.map_append] at distinct
  -- A line of another binding would make two bindings of one symbol.
  have others {line : String} (written : line ∈ (before ++ after).flatMap lines) :
      ¬ BindsSymbol binding.symbol line := by
    intro binds
    obtain ⟨other, listed, inside⟩ := List.mem_flatMap.mp written
    have alsoBinds : BindsSymbol other.symbol line := ⟨_, line_of_bindsSymbol inside binds⟩
    have listedWhole : other ∈ before ++ binding :: after :=
      (List.sublist_cons_self binding after).append_left before |>.subset listed
    have same := binds.unique alsoBinds (plain binding member) (plain other listedWhole)
    exact distinct.1 (same ▸ List.mem_map_of_mem listed)
  refine ⟨before.flatMap lines, _, after.flatMap lines, ?_, rfl, ?_⟩
  · rw [List.flatMap_append, List.flatMap_cons, lines_eq binding]
    simp only [List.append_assoc, List.singleton_append]
    rfl
  · intro line written
    rw [List.mem_append, List.mem_append, or_right_comm] at written
    rcases written with outside | inside
    · exact others (by rwa [List.flatMap_append, List.mem_append])
    · obtain ⟨wrapper, -, written⟩ := List.mem_flatMap.mp inside
      exact Wrapper.not_bindsSymbol written _

end Binding

/-- What stands before the arguments of a call, and the parameter for the object on which
a method is called. -/
inductive Callable.CalledAs : Callable → List String → String → Prop
  | function {decl} : CalledAs (.function decl) [] decl.name
  | static {owner decl} : decl.isStatic →
      CalledAs (.method owner decl) [] (owner.name ++ "::" ++ decl.name)
  | object {owner decl} : decl.isStatic = false →
      CalledAs (.method owner decl) [owner.name ++ "* p0"]
        ("((" ++ owner.name ++ "*)p0)->" ++ decl.name)

theorem Callable.calledAs (callable : Callable) : callable.CalledAs
    (callable.receiver?.map fun owner => owner.name ++ "* p0").toList callable.callee := by
  cases callable with
  | function decl => exact .function
  | method owner decl =>
      rw [callee, receiver?]
      cases static : decl.isStatic with
      | true => exact .static static
      | false => exact .object static

/-- A statement in which a call is made. -/
inductive Performs (call : String) : String → Prop
  | alone : Performs call (call ++ ";")
  | returned : Performs call ("return " ++ call ++ ";")
  | addressed : Performs call ("return &(" ++ call ++ ");")

theorem performs_callStatement (call : String) (result : Option Passing) :
    Performs call (callStatement call result) := by
  match result with
  | none => exact .alone
  | some (.value _) => exact .returned
  | some (.address _) => exact .addressed

/-- The symbols of a tree's bridged functions, and of all getters and setters. -/
inductive SymbolTable.Bridged (symbols : SymbolTable) (stubs : StubTree) (symbol : String) : Prop
  | call {stub} : stub ∈ stubs.allFunctions → stub.call = .bridged →
      symbols.functions.get? stub.id = some symbol → Bridged symbols stubs symbol
  | read {id} : symbols.getters.get? id = some symbol → Bridged symbols stubs symbol
  | write {id} : symbols.setters.get? id = some symbol → Bridged symbols stubs symbol

/-- The lines that bind a symbol to what a stub calls.  A wrapper cannot hand on a variable
number of arguments, so a variadic function is bound itself. -/
inductive Index.BindsCall (index : Index) (symbol : String) (callable : Callable)
    (lines : List String) : Prop
  | wrapper {name receiver callee arguments} : callable.isVariadic = false →
      callable.CalledAs receiver callee →
      Performs (callee ++ "(" ++ arguments ++ ")") (index.callWrapper callable name).statement →
      (index.callWrapper callable name).BoundIn symbol lines →
      BindsCall index symbol callable lines
  | function {decl} : callable = .function decl → decl.isVariadic →
      BoundBehind [] symbol decl.name lines →
      BindsCall index symbol callable lines

/-- The lines that bind a symbol to a wrapper that gives back a native value, or its address
if it is read in place. -/
inductive Getter.BoundIn (getter : Getter) (symbol : String) (lines : List String) : Prop
  | address {name} : getter.isAggregate →
      Wrapper.BoundIn ⟨name, "void*", [], "return (void*) &" ++ getter.nativeName ++ ";"⟩
        symbol lines →
      BoundIn getter symbol lines
  | value {name} : getter.isAggregate = false →
      Wrapper.BoundIn ⟨name, getter.nativeType.spelling, [], "return " ++ getter.nativeName ++ ";"⟩
        symbol lines →
      BoundIn getter symbol lines

/-- The lines that bind a symbol to a wrapper that assigns its parameter. -/
def Setter.BoundIn (setter : Setter) (symbol : String) (lines : List String) : Prop :=
  ∃ name parameter, Declares setter.nativeType.spelling "p0" parameter ∧
    Wrapper.BoundIn ⟨name, "void", [parameter], setter.nativeName ++ " = p0;"⟩ symbol lines

/-- What symbols and native lines are to a library: whatever is reached through native
code has a symbol, and each symbol that needs a line has one, behind the wrapper for
it. -/
structure Index.Linkage (index : Index) (library : Library) (symbols : SymbolTable)
    (lines : List String) : Prop where
  functions : ∀ stub ∈ library.stubs.allFunctions, (symbols.functions.get? stub.id).isSome ↔
    (∃ symbol, stub.call = .direct symbol) ∨ stub.call = .bridged
  getters : ∀ id, (symbols.getters.get? id).isSome ↔
    ∃ stub ∈ library.stubs.allProperties, stub.id = id ∧ stub.getter? = some .bridge
  setters : ∀ id, (symbols.setters.get? id).isSome ↔
    ∃ stub ∈ library.stubs.allProperties, stub.id = id ∧ stub.setter? = some .bridge
  calls : ∀ stub ∈ library.stubs.allFunctions, stub.call = .bridged →
    ∃ symbol callable, symbols.functions.get? stub.id = some symbol ∧
      index.resolve stub = .ok callable ∧ index.BindsCall symbol callable lines
  reads : ∀ id symbol, symbols.getters.get? id = some symbol →
    ∃ getter, library.table.getters.get? id = some getter ∧ getter.BoundIn symbol lines
  writes : ∀ id symbol, symbols.setters.get? id = some symbol →
    ∃ setter, library.table.setters.get? id = some setter ∧ setter.BoundIn symbol lines
  only : ∀ line ∈ lines, (∃ symbol, BindsSymbol symbol line) →
    ∃ symbol, symbols.Bridged library.stubs symbol ∧ BindsSymbol symbol line

namespace Index

namespace Links

variable {index : Index} {run built after : Run} {outcomes : List Outcome}
  {bindings : List Binding} (links : index.Links run outcomes built bindings after)

include links

private theorem stands {request : Request}
    (member : request ∈ (Library.ofOutcomes outcomes).requests) : ∃ binding,
      index.Fulfils built.package request binding ∧
        BoundBehind binding.definition binding.symbol binding.function
          (bindings.flatMap (·.lines)) := by
  obtain ⟨binding, listed, fulfils⟩ :=
    exists_of_forall₂ (List.Forall₂.flip links.fulfilled) member
  refine ⟨binding, fulfils, Binding.boundBehind_of_mem listed ?_ fun other alsoListed => ?_⟩
  · rw [map_symbol_of_fulfilled links.fulfilled]
    exact links.builds.nodup_symbols built.package
  · obtain ⟨asked, -, answer⟩ := exists_of_forall₂ links.fulfilled alsoListed
    rw [answer.symbol]
    intro blank
    exact absurd ((asked.isIdentifier_symbol built.package).characters ' ' blank) (by decide)

private theorem get?_call {stub : FunctionStub}
    (member : stub ∈ (Library.ofOutcomes outcomes).stubs.allFunctions) :
    ((Library.ofOutcomes outcomes).symbols built.package).functions.get? stub.id =
      stub.symbol? built.package :=
  Library.get?_functions (List.nodup_append.mp links.builds.nodup_memberIds).1 member

private theorem bindsCall {stub : FunctionStub}
    (member : stub ∈ (Library.ofOutcomes outcomes).stubs.allFunctions)
    (bridged : stub.call = .bridged) :
    ∃ symbol callable,
      ((Library.ofOutcomes outcomes).symbols built.package).functions.get? stub.id =
        some symbol ∧ index.resolve stub = .ok callable ∧
      index.BindsCall symbol callable (bindings.flatMap (·.lines)) := by
  have symbol : stub.symbol? built.package =
      some (stubSymbol built.package stub.name "" stub.id) := by
    rw [FunctionStub.symbol?, bridged]
  have asked := Library.mem_requests.mpr (.inl ⟨stub, member, bridged, rfl⟩)
  obtain ⟨binding, fulfils, stands⟩ := links.stands asked
  obtain ⟨callable, found, function⟩ := links.builds.resolves member bridged
  refine ⟨_, callable, (links.get?_call member).trans symbol, found, ?_⟩
  cases fulfils with
  | variadic resolved variadic =>
      cases found.symm.trans resolved
      obtain ⟨decl, rfl⟩ := function variadic
      exact .function rfl variadic stands
  | call resolved fixed =>
      cases found.symm.trans resolved
      exact .wrapper fixed callable.calledAs (performs_callStatement _ _) (Wrapper.boundIn stands)

theorem linkage : index.Linkage (Library.ofOutcomes outcomes)
    ((Library.ofOutcomes outcomes).symbols built.package) (bindings.flatMap (·.lines)) where
  functions stub member := by
    rw [links.get?_call member, FunctionStub.symbol?]
    cases stub.call <;> simp
  getters id := by
    rw [← links.builds.mem_getters, SortedMap.mem_keys_iff, Library.get?_getters,
      Option.isSome_map, Option.isSome_iff_ne_none]
  setters id := by
    rw [← links.builds.mem_setters, SortedMap.mem_keys_iff, Library.get?_setters,
      Option.isSome_map, Option.isSome_iff_ne_none]
  calls _ := links.bindsCall
  reads id symbol found := by
    rw [Library.get?_getters] at found
    obtain ⟨getter, entry, rfl⟩ := Option.map_eq_some_iff.mp found
    have asked := Library.mem_requests.mpr (.inr (.inl ⟨(id, getter), mem_of_valueOf? entry, rfl⟩))
    obtain ⟨binding, fulfils, stands⟩ := links.stands asked
    refine ⟨getter, entry, ?_⟩
    cases fulfils with
    | address aggregate => exact .address aggregate (Wrapper.boundIn stands)
    | value plain => exact .value plain (Wrapper.boundIn stands)
  writes id symbol found := by
    rw [Library.get?_setters] at found
    obtain ⟨setter, entry, rfl⟩ := Option.map_eq_some_iff.mp found
    have asked := Library.mem_requests.mpr (.inr (.inr ⟨(id, setter), mem_of_valueOf? entry, rfl⟩))
    obtain ⟨binding, fulfils, stands⟩ := links.stands asked
    cases fulfils with
    | assign => exact ⟨setter, entry, _, _, declares_declare _ _, Wrapper.boundIn stands⟩
  only line written binds := by
    obtain ⟨binding, listed, inside⟩ := List.mem_flatMap.mp written
    obtain ⟨symbol, binds⟩ := binds
    obtain ⟨request, asked, answer⟩ := exists_of_forall₂ links.fulfilled listed
    refine ⟨binding.symbol, ?_, _, Binding.line_of_bindsSymbol inside binds⟩
    rw [answer.symbol]
    rcases Library.mem_requests.mp asked with
      ⟨stub, member, bridged, rfl⟩ | ⟨entry, member, rfl⟩ | ⟨entry, member, rfl⟩
    · refine .call member bridged ((links.get?_call member).trans ?_)
      rw [FunctionStub.symbol?, bridged]
      rfl
    · refine @SymbolTable.Bridged.read _ _ _ entry.1 ?_
      rw [Library.get?_getters, SortedMap.get?, valueOf?_of_mem (SortedMap.nodup_keys _) member]
      rfl
    · refine @SymbolTable.Bridged.write _ _ _ entry.1 ?_
      rw [Library.get?_setters, SortedMap.get?, valueOf?_of_mem (SortedMap.nodup_keys _) member]
      rfl

end Links

/-- Whatever an index declares, it is built and bridged without failure into one module,
and the native lines link the symbols of that module. -/
theorem linkage_of_build (index : Index) (run : Run) : ∃ library built bridge symbols after,
    index.build.run run = (.ok library, built) ∧
      (index.bridge library.stubs library.table).run built = (.ok bridge, after) ∧
      bridge.modules = [{ stubs := library.stubs, symbols }] ∧
      index.Linkage library symbols bridge.lines := by
  obtain ⟨outcomes, built, bindings, after, links⟩ := index.exists_links run
  exact ⟨Library.ofOutcomes outcomes, built, _, _, after, links.builds.build_run, links.bridged,
    rfl, links.linkage⟩

end Index

end NativeBindings
