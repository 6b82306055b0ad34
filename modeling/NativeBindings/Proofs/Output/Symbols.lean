import NativeBindings.Proofs.Bridge.Linkage
import NativeBindings.Proofs.Build.Table
import NativeBindings.Proofs.Output.Walks

namespace NativeBindings

/-! # Where symbols are shown

A listing shows all symbols of a module: that of a function stands above it, those of a
property behind it.  Metadata shows the symbols of functions and the getters of
properties; the setters are in no fragment and in no annotation.
-/

/-- A text stands somewhere in another. -/
def Occurs (part text : String) : Prop := part.toList <:+: text.toList

namespace Occurs

variable {part text : String}

theorem refl (text : String) : Occurs text text := List.infix_rfl

theorem append_left (front : String) (inside : Occurs part text) :
    Occurs part (front ++ text) := by
  rw [Occurs, String.toList_append]
  exact inside.trans (List.suffix_append _ _).isInfix

theorem append_right (back : String) (inside : Occurs part text) :
    Occurs part (text ++ back) := by
  rw [Occurs, String.toList_append]
  exact inside.trans (List.prefix_append _ _).isInfix

theorem of_mem_lines {lines : List String} {line : String} (inside : Occurs part line)
    (member : line ∈ lines) : Occurs part (textOfLines lines) := by
  have whole : (textOfLines lines).toList = lines.flatMap fun line => line.toList ++ ['\n'] := by
    simp [textOfLines, List.flatMap_def, Function.comp_def]
  rw [Occurs, whole]
  obtain ⟨front, back, rfl⟩ := List.append_of_mem member
  simp only [List.flatMap_append, List.flatMap_cons, List.append_assoc]
  exact inside.trans (List.infix_append' _ _ _)

end Occurs

namespace Listing

variable {symbols : SymbolTable} {properties more : List PropertyStub}
  {functions others : List FunctionStub} {lines whole : List String}

variable (symbols properties functions lines) in
/-- The lines of these properties and functions are among others, at some indent. -/
structure Shown : Prop where
  properties : ∀ stub ∈ properties, ∃ indent, propertyLine symbols indent stub ∈ lines
  functions : ∀ stub ∈ functions, ∃ indent, functionLines symbols indent stub ⊆ lines

namespace Shown

theorem nothing : Shown symbols [] [] lines := ⟨nofun, nofun⟩

theorem mono (shown : Shown symbols properties functions lines) (subset : lines ⊆ whole) :
    Shown symbols properties functions whole where
  properties stub member := (shown.properties stub member).imp fun _ line => subset line
  functions stub member :=
    (shown.functions stub member).imp fun _ part => List.Subset.trans part subset

theorem append (shown : Shown symbols properties functions lines)
    (alsoShown : Shown symbols more others lines) :
    Shown symbols (properties ++ more) (functions ++ others) lines where
  properties stub member :=
    (List.mem_append.mp member).elim (shown.properties stub) (alsoShown.properties stub)
  functions stub member :=
    (List.mem_append.mp member).elim (shown.functions stub) (alsoShown.functions stub)

end Shown

theorem propertyNote_val {stub : PropertyStub} {accessor : Accessor} {getter : String}
    (kind : stub.kind = .val accessor) (read : symbols.getters.get? stub.id = some getter) :
    propertyNote symbols stub = " // get " ++ getter := by
  rw [propertyNote, kind, read]

theorem propertyNote_var {stub : PropertyStub} {accessor assigner : Accessor}
    {getter setter : String} (kind : stub.kind = .var accessor assigner)
    (read : symbols.getters.get? stub.id = some getter)
    (written : symbols.setters.get? stub.id = some setter) :
    propertyNote symbols stub = " // get " ++ getter ++ ", set " ++ setter := by
  rw [propertyNote, kind, read, written]

/-- A class that is listed without its members has none. -/
def ListsAll (stub : ClassStub) : Prop :=
  match stub.kind with
  | .forwardStruct | .enumeration .. => stub.properties = [] ∧ stub.functions = []
  | .struct .. | .nativeClass | .objcClass | .objcProtocol => True

theorem shown_memberLines (symbols : SymbolTable) (stub : ClassStub) :
    Shown symbols stub.properties stub.functions (memberLines symbols stub) where
  properties _ member := ⟨"    ", List.mem_append_left _ (List.mem_map_of_mem member)⟩
  functions _ member :=
    ⟨"    ", fun _ line => List.mem_append_right _ (List.mem_flatMap_of_mem member line)⟩

theorem shown_classLines {stub : ClassStub} (listsAll : ListsAll stub) :
    Shown symbols stub.properties stub.functions (classLines symbols stub) := by
  have members := shown_memberLines symbols stub
  unfold ListsAll at listsAll
  unfold classLines
  cases kind : stub.kind with
  | forwardStruct | enumeration =>
      rw [kind] at listsAll
      rw [listsAll.1, listsAll.2]
      exact .nothing
  | struct | nativeClass | objcClass | objcProtocol =>
      refine members.mono fun line member => ?_
      simp [member]

theorem shown_classes (symbols : SymbolTable) {classes : List ClassStub}
    (listsAll : ∀ stub ∈ classes, ListsAll stub) :
    Shown symbols (classes.flatMap (·.properties)) (classes.flatMap (·.functions))
      (classes.flatMap fun stub => "" :: classLines symbols stub) := by
  induction classes with
  | nil => exact .nothing
  | cons stub rest ih =>
      obtain ⟨first, later⟩ := List.forall_mem_cons.mp listsAll
      refine ((shown_classLines first).mono fun line member => ?_).append
        ((ih later).mono fun line member => ?_)
      · simp [member]
      · exact List.mem_append_right _ member

theorem shown_free (symbols : SymbolTable) (properties : List PropertyStub)
    (functions : List FunctionStub) :
    Shown symbols properties functions
      (properties.flatMap (fun stub => ["", propertyLine symbols "" stub]) ++
        functions.flatMap fun stub => "" :: functionLines symbols "" stub) where
  properties _ member :=
    ⟨"", List.mem_append_left _ (List.mem_flatMap_of_mem member (by simp))⟩
  functions _ member := ⟨"", fun _ line =>
    List.mem_append_right _ (List.mem_flatMap_of_mem member (List.mem_cons_of_mem _ line))⟩

mutual

theorem shown_treeLines : (tree : StubTree) → (∀ stub ∈ tree.allClasses, ListsAll stub) →
    Shown symbols tree.allProperties tree.allFunctions (treeLines symbols tree)
  | ⟨classes, functions, properties, typealiases, groups⟩, listsAll => by
      rw [StubTree.allClasses] at listsAll
      obtain ⟨inClasses, inGroups⟩ := List.forall_mem_append.mp listsAll
      have ofClasses := shown_classes symbols inClasses
      have free := shown_free symbols properties functions
      have ofGroups := shown_groupLines groups inGroups
      rw [treeLines, StubTree.allProperties, StubTree.allFunctions]
      apply ((ofClasses.mono ?front).append (free.mono ?middle)).append (ofGroups.mono ?back)
      case front =>
        intro line member
        simp only [List.mem_append, member, true_or, or_true]
      case middle =>
        intro line member
        simp only [List.mem_append] at member ⊢
        rcases member with inProperties | inFunctions
        · simp only [inProperties, true_or, or_true]
        · simp only [inFunctions, true_or, or_true]
      case back => exact fun line member => List.mem_append_right _ member

theorem shown_groupLines : (groups : List StubGroup) →
    (∀ stub ∈ StubTree.groupClasses groups, ListsAll stub) →
    Shown symbols (StubTree.groupProperties groups) (StubTree.groupFunctions groups)
      (groupLines symbols groups)
  | [], _ => .nothing
  | ⟨_, _, members⟩ :: rest, listsAll => by
      rw [StubTree.groupClasses] at listsAll
      obtain ⟨inMembers, inRest⟩ := List.forall_mem_append.mp listsAll
      refine ((shown_treeLines members inMembers).mono fun line member => ?_).append
        ((shown_groupLines rest inRest).mono fun line member => ?_)
      · simp [groupLines, member]
      · simp [groupLines, member]

end

end Listing

namespace Index

variable {index : Index} {run after : Run} {decl : Declaration} {built : Built}

/-- Closed enumerations and undefined structs have no members. -/
theorem Gives.listsAll (gives : index.Gives run decl built) :
    ∀ stub ∈ built.classes, Listing.ListsAll stub := by
  intro stub member
  cases gives with
  | anonymousEnum _ _ _ constants =>
      rw [Built.classes, classes_constants constants] at member
      cases member
  | openEnum _ _ _ _ constants =>
      rw [Built.classes, List.flatMap_append, classes_constants constants] at member
      simp [StubElement.classes] at member
  | forwardStruct | strictEnum | struct | nativeClass | objcProtocol | objcClass =>
      cases List.mem_singleton.mp member
      simp [Listing.ListsAll]
  | _ => simp [Built.classes, StubElement.classes] at member

/-- What is assigned through the bridge is read through it. -/
theorem Accessed.kinds (accessed : Accessed built) {stub : PropertyStub}
    (member : stub ∈ built.properties) :
    stub.Unbridged ∨ stub.kind = .val .bridge ∨ stub.kind = .var .bridge .bridge := by
  have kinds (getter : stub.getter? = some .bridge) :
      (stub.setter? = none → stub.kind = .val .bridge) ∧
        (stub.setter? = some .bridge → stub.kind = .var .bridge .bridge) := by
    unfold PropertyStub.getter? at getter
    unfold PropertyStub.setter?
    cases kind : stub.kind <;> simp_all
  cases accessed with
  | unbridged _ _ others => exact .inl (others stub member)
  | readOnly only getter setter =>
      cases List.mem_singleton.mp (only ▸ member)
      exact .inr (.inl ((kinds getter).1 setter))
  | writable only getter setter =>
      cases List.mem_singleton.mp (only ▸ member)
      exact .inr (.inr ((kinds getter).2 setter))

namespace Builds

variable {outcomes : List Outcome} (builds : index.Builds run outcomes after)

include builds

theorem listsAll :
    ∀ stub ∈ (Library.ofOutcomes outcomes).stubs.allClasses, Listing.ListsAll stub := by
  intro stub member
  rw [(Library.allClasses_ofOutcomes outcomes).mem_iff] at member
  obtain ⟨built, listed, inside⟩ := List.mem_flatMap.mp member
  obtain ⟨decl, -, gives⟩ := builds.of_mem_built listed
  exact gives.listsAll stub inside

theorem kinds {stub : PropertyStub}
    (member : stub ∈ (Library.ofOutcomes outcomes).stubs.allProperties) :
    stub.Unbridged ∨ stub.kind = .val .bridge ∨ stub.kind = .var .bridge .bridge := by
  rw [(Library.allProperties_ofOutcomes outcomes).mem_iff] at member
  obtain ⟨built, listed, inside⟩ := List.mem_flatMap.mp member
  obtain ⟨decl, -, gives⟩ := builds.of_mem_built listed
  exact gives.accessed.kinds inside

end Builds

end Index

namespace BindingModule

variable (module : BindingModule) (package : String)

/-- A symbol is that of a fragment. -/
def Carries (symbol : String) : Prop :=
  ∃ fragment ∈ module.fragments package, fragment.symbol = some symbol

/-- The listing shows all symbols; metadata carries those of functions and the getters,
and annotates the functions. -/
structure ShowsSymbols : Prop where
  functions : ∀ id symbol, module.symbols.functions.get? id = some symbol →
    ∃ stub ∈ module.stubs.allFunctions, stub.id = id ∧
      (∃ scope, Fragment.ofFunction module.symbols scope stub ∈ module.fragments package) ∧
      "@CCall(\"" ++ symbol ++ "\")" ++ " " ++ stub.name ∈ module.annotations ∧
      Occurs ("@CCall(\"" ++ symbol ++ "\")") (Listing.text package module)
  getters : ∀ id symbol, module.symbols.getters.get? id = some symbol →
    ∃ stub ∈ module.stubs.allProperties, stub.id = id ∧
      (∃ scope, Fragment.ofProperty module.symbols scope stub ∈ module.fragments package) ∧
      Occurs (" // get " ++ symbol) (Listing.text package module)
  setters : ∀ id symbol, module.symbols.setters.get? id = some symbol →
    ∃ getter, module.symbols.getters.get? id = some getter ∧
      Occurs (" // get " ++ getter ++ ", set " ++ symbol) (Listing.text package module)
  carried : ∀ symbol, module.Carries package symbol ↔
    (∃ id, module.symbols.functions.get? id = some symbol) ∨
      ∃ id, module.symbols.getters.get? id = some symbol
  annotated : ∀ text, text ∈ module.annotations ↔ ∃ stub ∈ module.stubs.allFunctions,
    ∃ symbol, module.symbols.functions.get? stub.id = some symbol ∧
      text = "@CCall(\"" ++ symbol ++ "\")" ++ " " ++ stub.name
  /-- No setter is carried, unless a native function happens to have its name. -/
  lost : ∀ id symbol, module.symbols.setters.get? id = some symbol →
    module.Carries package symbol → ∃ stub ∈ module.stubs.allFunctions, stub.call = .direct symbol

section Shown

variable {module : BindingModule} {package : String}

theorem carries_iff {symbol : String} : module.Carries package symbol ↔
    (∃ stub ∈ module.stubs.allFunctions, module.symbols.functions.get? stub.id = some symbol) ∨
      ∃ stub ∈ module.stubs.allProperties, module.symbols.getters.get? stub.id = some symbol := by
  have described : List.Forall₂ (Fragment.Describes module.symbols)
      (module.fragments package) module.stubs.allElements :=
    Fragment.describes_tree (module.packageName package) module.stubs
  constructor
  · rintro ⟨fragment, listed, carried⟩
    obtain ⟨element, member, told⟩ := exists_of_forall₂ described.flip listed
    cases told with
    | ofTypealias | ofClass => cases carried
    | ofProperty scope stub =>
        refine .inr ⟨stub, ?_, carried⟩
        rw [← StubTree.filterMap_property?]
        exact List.mem_filterMap.mpr ⟨_, member, rfl⟩
    | ofFunction scope stub =>
        refine .inl ⟨stub, ?_, carried⟩
        rw [← StubTree.filterMap_function?]
        exact List.mem_filterMap.mpr ⟨_, member, rfl⟩
  · rintro (⟨stub, member, found⟩ | ⟨stub, member, found⟩)
    · obtain ⟨fragment, listed, scope, rfl⟩ :=
        exists_of_forall₂ (module.forall₂_functionFragments package) member
      exact ⟨_, List.mem_of_mem_filter listed, found⟩
    · obtain ⟨fragment, listed, scope, rfl⟩ :=
        exists_of_forall₂ (module.forall₂_propertyFragments package) member
      exact ⟨_, List.mem_of_mem_filter listed, found⟩

theorem mem_annotations {text : String} : text ∈ module.annotations ↔
    ∃ stub ∈ module.stubs.allFunctions, ∃ symbol,
      module.symbols.functions.get? stub.id = some symbol ∧
        text = "@CCall(\"" ++ symbol ++ "\")" ++ " " ++ stub.name := by
  simp only [annotations, Listing.callAnnotation, List.mem_filterMap, Option.map_eq_some_iff,
    @eq_comm _ text]

variable (package) (listsAll : ∀ stub ∈ module.stubs.allClasses, Listing.ListsAll stub)

include listsAll

/-- What is shown of a property stands behind it in the listing. -/
theorem occurs_propertyNote {stub : PropertyStub} (member : stub ∈ module.stubs.allProperties)
    (shown : ∀ value, stub.kind ≠ .constant value) :
    Occurs (Listing.propertyNote module.symbols stub) (Listing.text package module) := by
  obtain ⟨indent, line⟩ := (Listing.shown_treeLines module.stubs listsAll).properties stub member
  refine Occurs.of_mem_lines ?_ (List.mem_cons_of_mem _ line)
  unfold Listing.propertyLine
  cases kind : stub.kind with
  | constant value => exact absurd kind (shown value)
  | val | var => exact (Occurs.refl _).append_left _

theorem occurs_annotation {stub : FunctionStub} {symbol : String}
    (member : stub ∈ module.stubs.allFunctions)
    (found : module.symbols.functions.get? stub.id = some symbol) :
    Occurs ("@CCall(\"" ++ symbol ++ "\")") (Listing.text package module) := by
  obtain ⟨indent, lines⟩ := (Listing.shown_treeLines module.stubs listsAll).functions stub member
  have line : indent ++ ("@CCall(\"" ++ symbol ++ "\")") ∈
      Listing.functionLines module.symbols indent stub := by
    simp [Listing.functionLines, Listing.callAnnotation, found]
  exact Occurs.of_mem_lines ((Occurs.refl _).append_left indent)
    (List.mem_cons_of_mem _ (lines line))

end Shown

end BindingModule

namespace Index.Builds

variable {index : Index} {run after : Run} {outcomes : List Outcome}
  (builds : index.Builds run outcomes after)

include builds

theorem exists_getter {own symbol : String} {id : StubId}
    (found : ((Library.ofOutcomes outcomes).symbols own).getters.get? id = some symbol) :
    ∃ stub ∈ (Library.ofOutcomes outcomes).stubs.allProperties, stub.id = id ∧
      (stub.kind = .val .bridge ∨ stub.kind = .var .bridge .bridge) := by
  rw [Library.get?_getters] at found
  obtain ⟨getter, there, -⟩ := Option.map_eq_some_iff.mp found
  obtain ⟨stub, member, same, bridged⟩ :=
    builds.mem_getters.mp (SortedMap.mem_keys_iff_exists.mpr ⟨getter, there⟩)
  exact ⟨stub, member, same, (builds.kinds member).resolve_left fun none => none.1 bridged⟩

theorem exists_setter {own symbol : String} {id : StubId}
    (found : ((Library.ofOutcomes outcomes).symbols own).setters.get? id = some symbol) :
    ∃ stub ∈ (Library.ofOutcomes outcomes).stubs.allProperties, stub.id = id ∧
      stub.kind = .var .bridge .bridge := by
  rw [Library.get?_setters] at found
  obtain ⟨setter, there, -⟩ := Option.map_eq_some_iff.mp found
  obtain ⟨stub, member, same, bridged⟩ :=
    builds.mem_setters.mp (SortedMap.mem_keys_iff_exists.mpr ⟨setter, there⟩)
  rcases builds.kinds member with none | constant | assigned
  · exact absurd bridged none.2
  · simp [PropertyStub.setter?, constant] at bridged
  · exact ⟨stub, member, same, assigned⟩

/-- A variable has both symbols. -/
theorem getter_of_setter {own symbol : String} {id : StubId}
    (found : ((Library.ofOutcomes outcomes).symbols own).setters.get? id = some symbol) :
    ∃ getter, ((Library.ofOutcomes outcomes).symbols own).getters.get? id = some getter := by
  rw [Library.get?_setters] at found
  obtain ⟨setter, there, -⟩ := Option.map_eq_some_iff.mp found
  obtain ⟨getter, alsoThere, -⟩ := builds.describes.readable id setter there
  exact ⟨_, (Library.get?_getters id).trans (congrArg (Option.map _) alsoThere)⟩

theorem setter_of_var (own : String) {stub : PropertyStub}
    (member : stub ∈ (Library.ofOutcomes outcomes).stubs.allProperties)
    (kind : stub.kind = .var .bridge .bridge) :
    ∃ setter, ((Library.ofOutcomes outcomes).symbols own).setters.get? stub.id = some setter := by
  have assigned : stub.setter? = some .bridge := by simp [PropertyStub.setter?, kind]
  have known := builds.mem_setters.mpr ⟨stub, member, rfl, assigned⟩
  obtain ⟨setter, there⟩ := SortedMap.mem_keys_iff_exists.mp known
  exact ⟨_, (Library.get?_setters stub.id).trans (congrArg (Option.map _) there)⟩

/-- A setter's symbol is that of a function only if it is its native name. -/
theorem direct_of_setter {own symbol : String} {id : StubId} {stub : FunctionStub}
    (found : ((Library.ofOutcomes outcomes).symbols own).setters.get? id = some symbol)
    (member : stub ∈ (Library.ofOutcomes outcomes).stubs.allFunctions)
    (alike : ((Library.ofOutcomes outcomes).symbols own).functions.get? stub.id = some symbol) :
    stub.call = .direct symbol := by
  obtain ⟨functions, -, disjoint⟩ := List.nodup_append.mp builds.nodup_memberIds
  rw [Library.get?_functions functions member, FunctionStub.symbol?] at alike
  obtain ⟨property, listed, owner, -⟩ := builds.exists_setter found
  rw [Library.get?_setters] at found
  obtain ⟨setter, -, isSetter⟩ := Option.map_eq_some_iff.mp found
  cases call : stub.call with
  | objcMessage => simp [call] at alike
  | direct name => simpa [call] using alike
  | bridged =>
      have isCall : stubSymbol own stub.name "" stub.id = symbol := by simpa [call] using alike
      have same : stub.id = id := (stubSymbol_split (isCall.trans isSetter.symm)).1
      exact absurd (same.trans owner.symm)
        (disjoint _ (List.mem_map_of_mem member) _ (List.mem_map_of_mem listed))

theorem showsSymbols (own package : String) :
    BindingModule.ShowsSymbols {
      stubs := (Library.ofOutcomes outcomes).stubs
      symbols := (Library.ofOutcomes outcomes).symbols own } package := by
  set module : BindingModule := {
    stubs := (Library.ofOutcomes outcomes).stubs
    symbols := (Library.ofOutcomes outcomes).symbols own }
  have listsAll : ∀ stub ∈ module.stubs.allClasses, Listing.ListsAll stub := builds.listsAll
  have carried (symbol : String) : module.Carries package symbol ↔
      (∃ id, module.symbols.functions.get? id = some symbol) ∨
        ∃ id, module.symbols.getters.get? id = some symbol := by
    rw [BindingModule.carries_iff]
    constructor
    · rintro (⟨stub, -, found⟩ | ⟨stub, -, found⟩)
      · exact .inl ⟨_, found⟩
      · exact .inr ⟨_, found⟩
    · rintro (⟨id, found⟩ | ⟨id, found⟩)
      · obtain ⟨stub, member, rfl⟩ := Library.exists_of_get?_functions found
        exact .inl ⟨stub, member, found⟩
      · obtain ⟨stub, member, rfl, -⟩ := builds.exists_getter found
        exact .inr ⟨stub, member, found⟩
  constructor
  case functions =>
    intro id symbol found
    obtain ⟨stub, member, rfl⟩ := Library.exists_of_get?_functions found
    obtain ⟨fragment, listed, scope, rfl⟩ :=
      exists_of_forall₂ (module.forall₂_functionFragments package) member
    exact ⟨stub, member, rfl, ⟨scope, List.mem_of_mem_filter listed⟩,
      BindingModule.mem_annotations.mpr ⟨stub, member, symbol, found, rfl⟩,
      BindingModule.occurs_annotation package listsAll member found⟩
  case getters =>
    intro id symbol found
    obtain ⟨stub, member, rfl, kind⟩ := builds.exists_getter found
    obtain ⟨fragment, listed, scope, rfl⟩ :=
      exists_of_forall₂ (module.forall₂_propertyFragments package) member
    refine ⟨stub, member, rfl, ⟨scope, List.mem_of_mem_filter listed⟩, ?_⟩
    rcases kind with constant | assigned
    · have shown := BindingModule.occurs_propertyNote package listsAll member
        (by simp [constant])
      rwa [Listing.propertyNote_val constant found] at shown
    · obtain ⟨setter, written⟩ := builds.setter_of_var own member assigned
      have shown := BindingModule.occurs_propertyNote package listsAll member
        (by simp [assigned])
      rw [Listing.propertyNote_var assigned found written] at shown
      exact (((Occurs.refl _).append_right ", set ").append_right setter).trans shown
  case setters =>
    intro id symbol found
    obtain ⟨stub, member, rfl, kind⟩ := builds.exists_setter found
    obtain ⟨getter, read⟩ := builds.getter_of_setter found
    have shown := BindingModule.occurs_propertyNote package listsAll member
      (by simp [kind])
    rw [Listing.propertyNote_var kind read found] at shown
    exact ⟨getter, read, shown⟩
  case carried => exact carried
  case annotated => exact fun text => BindingModule.mem_annotations
  case lost =>
    intro id symbol found carries
    rcases (carried symbol).mp carries with ⟨other, alike⟩ | ⟨other, alike⟩
    · obtain ⟨stub, member, rfl⟩ := Library.exists_of_get?_functions alike
      exact ⟨stub, member, builds.direct_of_setter found member alike⟩
    · rw [Library.get?_setters] at found
      rw [Library.get?_getters] at alike
      obtain ⟨setter, -, isSetter⟩ := Option.map_eq_some_iff.mp found
      obtain ⟨getter, -, isGetter⟩ := Option.map_eq_some_iff.mp alike
      exact absurd (isGetter.trans isSetter.symm) getter_ne_setter

end Index.Builds

namespace Index

/-- Whatever an index declares, it is built and bridged into one module, whose listing shows
all symbols; its metadata carries all but the setters. -/
theorem symbols_of_build (index : Index) (run : Run) : ∃ library built bridge module after,
    index.build.run run = (.ok library, built) ∧
      (index.bridge library.stubs library.table).run built = (.ok bridge, after) ∧
      bridge.modules = [module] ∧ module.stubs = library.stubs ∧
      ∀ package, module.ShowsSymbols package := by
  obtain ⟨outcomes, built, bindings, after, links⟩ := index.exists_links run
  exact ⟨Library.ofOutcomes outcomes, built, _, _, after, links.builds.build_run, links.bridged,
    rfl, rfl, links.builds.showsSymbols built.package⟩

/-- A variable that can be assigned. -/
def tally : Index where
  globals := .ofList [⟨⟨"tally"⟩, "tally", ⟨"int", false, .integer 4 true⟩⟩]

/-- The setter of the variable is left out. -/
example : (match (tally.linked.run (.start {})).1 with
    | .ok (_, bridge) => bridge.modules.map fun module =>
        (module.symbols.setters.toList.map (·.2), (module.fragments "tally").map (·.symbol),
          module.annotations)
    | .error _ => []) =
      [(["kni_interop_tally_set_1"], [some "kni_interop_tally_get_1"], [])] := by decide +kernel

end Index

end NativeBindings
