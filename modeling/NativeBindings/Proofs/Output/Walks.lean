import NativeBindings.Output.Metadata
import NativeBindings.Proofs.Stub.Elements

namespace NativeBindings

/-! # Walks over a tree

A tree is walked for its numbers, for its functions, for its properties and for the
fragments that describe it, each time by a recursion of its own.  They all meet the same
stubs, and where the order of their lists is visible they meet them in the same order.
-/

namespace StubTree

mutual

/-- All typealiases, those of groups among them. -/
def allTypealiases : StubTree → List TypealiasStub
  | ⟨_, _, _, typealiases, groups⟩ => typealiases ++ groupTypealiases groups

def groupTypealiases : List StubGroup → List TypealiasStub
  | [] => []
  | ⟨_, _, members⟩ :: rest => members.allTypealiases ++ groupTypealiases rest

end

mutual

/-- All groups, those of groups among them. -/
def allGroups : StubTree → List StubGroup
  | ⟨_, _, _, _, groups⟩ => groupGroups groups

def groupGroups : List StubGroup → List StubGroup
  | [] => []
  | ⟨id, name, members⟩ :: rest =>
      ⟨id, name, members⟩ :: (members.allGroups ++ groupGroups rest)

end

private theorem count_classIds (id : StubId) (classes : List ClassStub) :
    (classes.flatMap fun stub =>
        stub.id :: (stub.properties.map (·.id) ++ stub.functions.map (·.id))).count id =
      (classes.map (·.id)).count id + ((classes.flatMap (·.functions)).map (·.id)).count id +
        ((classes.flatMap (·.properties)).map (·.id)).count id := by
  induction classes with
  | nil => simp
  | cons stub rest ih =>
      simp only [List.flatMap_cons, List.map_cons, List.map_append, List.count_append,
        List.count_cons, ih]
      omega

mutual

theorem count_ids (id : StubId) : (tree : StubTree) →
    tree.ids.count id = (tree.allClasses.map (·.id)).count id +
      (tree.allTypealiases.map (·.id)).count id + (tree.allGroups.map (·.id)).count id +
      (tree.allFunctions.map (·.id)).count id + (tree.allProperties.map (·.id)).count id
  | ⟨classes, functions, properties, typealiases, groups⟩ => by
      have inGroups := count_groupIds id groups
      simp only [ids, allClasses, allTypealiases, allGroups, allFunctions, allProperties,
        List.map_append, List.count_append, count_classIds]
      omega

theorem count_groupIds (id : StubId) : (groups : List StubGroup) →
    (groupIds groups).count id = ((groupClasses groups).map (·.id)).count id +
      ((groupTypealiases groups).map (·.id)).count id +
      ((groupGroups groups).map (·.id)).count id +
      ((groupFunctions groups).map (·.id)).count id +
      ((groupProperties groups).map (·.id)).count id
  | [] => by
      simp [groupIds, groupClasses, groupTypealiases, groupGroups, groupFunctions,
        groupProperties]
  | ⟨own, _, members⟩ :: rest => by
      have inMembers := count_ids id members
      have inRest := count_groupIds id rest
      simp only [groupIds, groupClasses, groupTypealiases, groupGroups, groupFunctions,
        groupProperties, List.map_append, List.map_cons, List.count_append, List.count_cons]
      omega

end

mutual

/-- All elements but groups, the members of classes and of groups among them. -/
def allElements : StubTree → List StubElement
  | ⟨classes, functions, properties, typealiases, groups⟩ =>
      typealiases.map .ofTypealias ++
        classes.flatMap (fun stub => .ofClass stub ::
          (stub.properties.map .ofProperty ++ stub.functions.map .ofFunction)) ++
        properties.map .ofProperty ++ functions.map .ofFunction ++ groupElements groups

def groupElements : List StubGroup → List StubElement
  | [] => []
  | ⟨_, _, members⟩ :: rest => members.allElements ++ groupElements rest

end

private theorem filterMap_classElements {α : Type} (select : StubElement → Option α)
    (classes : List ClassStub) :
    (classes.flatMap fun stub => StubElement.ofClass stub ::
        (stub.properties.map .ofProperty ++ stub.functions.map .ofFunction)).filterMap select =
      classes.flatMap fun stub => (select (.ofClass stub)).toList ++
        (stub.properties.filterMap (select <| .ofProperty ·) ++
          stub.functions.filterMap (select <| .ofFunction ·)) := by
  induction classes with
  | nil => rfl
  | cons stub rest ih =>
      cases chosen : select (.ofClass stub) <;>
        simp [chosen, ih, List.filterMap_map]

/-- A walk that takes on each level what is selected there, and goes on in the groups. -/
structure Selects {α : Type} (select : StubElement → Option α)
    (ofTree : StubTree → List α) (ofGroups : List StubGroup → List α) : Prop where
  level : ∀ classes functions properties typealiases groups,
    ofTree ⟨classes, functions, properties, typealiases, groups⟩ =
      typealiases.filterMap (select <| .ofTypealias ·) ++
        (classes.flatMap fun stub => (select (.ofClass stub)).toList ++
          (stub.properties.filterMap (select <| .ofProperty ·) ++
            stub.functions.filterMap (select <| .ofFunction ·))) ++
        properties.filterMap (select <| .ofProperty ·) ++
        functions.filterMap (select <| .ofFunction ·) ++ ofGroups groups
  nil : ofGroups [] = []
  cons : ∀ id name members rest,
    ofGroups (⟨id, name, members⟩ :: rest) = ofTree members ++ ofGroups rest

namespace Selects

variable {α : Type} {select : StubElement → Option α} {ofTree : StubTree → List α}
  {ofGroups : List StubGroup → List α}

mutual

theorem filterMap_allElements (selects : Selects select ofTree ofGroups) : (tree : StubTree) →
    tree.allElements.filterMap select = ofTree tree
  | ⟨classes, functions, properties, typealiases, groups⟩ => by
      rw [selects.level, ← selects.filterMap_groupElements groups, allElements]
      simp only [List.filterMap_append, filterMap_classElements, List.filterMap_map,
        Function.comp_def]

theorem filterMap_groupElements (selects : Selects select ofTree ofGroups) :
    (groups : List StubGroup) → (groupElements groups).filterMap select = ofGroups groups
  | [] => selects.nil.symm
  | ⟨_, _, members⟩ :: rest => by
      rw [selects.cons, ← selects.filterMap_allElements members,
        ← selects.filterMap_groupElements rest, groupElements, List.filterMap_append]

end

end Selects

variable (tree : StubTree)

theorem filterMap_class? : tree.allElements.filterMap StubElement.class? = tree.allClasses :=
  have selects : Selects StubElement.class? allClasses groupClasses := {
    level := by simp [StubElement.class?, allClasses]
    nil := rfl
    cons := fun _ _ _ _ => rfl }
  selects.filterMap_allElements tree

theorem filterMap_function? :
    tree.allElements.filterMap StubElement.function? = tree.allFunctions :=
  have selects : Selects StubElement.function? allFunctions groupFunctions := {
    level := by simp [StubElement.function?, allFunctions]
    nil := rfl
    cons := fun _ _ _ _ => rfl }
  selects.filterMap_allElements tree

theorem filterMap_property? :
    tree.allElements.filterMap StubElement.property? = tree.allProperties :=
  have selects : Selects StubElement.property? allProperties groupProperties := {
    level := by simp [StubElement.property?, allProperties]
    nil := rfl
    cons := fun _ _ _ _ => rfl }
  selects.filterMap_allElements tree

theorem filterMap_typealias? :
    tree.allElements.filterMap StubElement.typealias? = tree.allTypealiases :=
  have selects : Selects StubElement.typealias? allTypealiases groupTypealiases := {
    level := by simp [StubElement.typealias?, allTypealiases, flatMap_nothing]
    nil := rfl
    cons := fun _ _ _ _ => rfl }
  selects.filterMap_allElements tree

end StubTree

namespace Fragment

/-- The fragment of a class without those of its members. -/
def ofClassHead (stub : ClassStub) : Fragment where
  kind := stub.kind.word
  name := stub.classifier.qualifiedName
  signature := String.intercalate ", " (stub.supertypes.map (·.qualifiedText))

/-- The kinds of the fragments of classes.  No other stub has one of them, so a fragment says
of what kind the element is that it tells of. -/
def classWords : List String := ["struct", "enum", "class", "objc class", "objc protocol"]

variable (symbols : SymbolTable)

/-- A fragment tells of an element, in whatever scope the element stands. -/
inductive Describes : Fragment → StubElement → Prop where
  | ofTypealias (stub : TypealiasStub) : Describes (ofTypealias stub) (.ofTypealias stub)
  | ofClass (stub : ClassStub) : Describes (ofClassHead stub) (.ofClass stub)
  | ofProperty (scope : String) (stub : PropertyStub) :
      Describes (ofProperty symbols scope stub) (.ofProperty stub)
  | ofFunction (scope : String) (stub : FunctionStub) :
      Describes (ofFunction symbols scope stub) (.ofFunction stub)

variable {symbols}

private theorem describes_map {α : Type} {fragment : α → Fragment} {element : α → StubElement}
    (each : ∀ stub, Describes symbols (fragment stub) (element stub)) (stubs : List α) :
    List.Forall₂ (Describes symbols) (stubs.map fragment) (stubs.map element) := by
  rw [List.forall₂_map_left_iff, List.forall₂_map_right_iff]
  exact List.forall₂_same.mpr fun stub _ => each stub

private theorem describes_class (stub : ClassStub) :
    List.Forall₂ (Describes symbols) (ofClass symbols stub)
      (.ofClass stub ::
        (stub.properties.map .ofProperty ++ stub.functions.map .ofFunction)) :=
  .cons (.ofClass stub) (List.rel_append
    (describes_map (.ofProperty stub.classifier.qualifiedName) stub.properties)
    (describes_map (.ofFunction stub.classifier.qualifiedName) stub.functions))

private theorem describes_classes (classes : List ClassStub) :
    List.Forall₂ (Describes symbols) (classes.flatMap (ofClass symbols))
      (classes.flatMap fun stub => .ofClass stub ::
        (stub.properties.map .ofProperty ++ stub.functions.map .ofFunction)) := by
  induction classes with
  | nil => exact .nil
  | cons stub rest ih => exact List.rel_append (describes_class stub) ih

mutual

theorem describes_tree (scope : String) : (tree : StubTree) →
    List.Forall₂ (Describes symbols) (ofTree symbols scope tree) tree.allElements
  | ⟨classes, functions, properties, typealiases, groups⟩ => by
      rw [ofTree, StubTree.allElements]
      have ofTypealiases := describes_map (@Describes.ofTypealias symbols) typealiases
      have ofProperties := describes_map (@Describes.ofProperty symbols scope) properties
      have ofFunctions := describes_map (@Describes.ofFunction symbols scope) functions
      have inGroups := describes_groups scope groups
      exact List.rel_append (List.rel_append (List.rel_append
        (List.rel_append ofTypealiases (describes_classes classes)) ofProperties)
        ofFunctions) inGroups

theorem describes_groups (scope : String) : (groups : List StubGroup) →
    List.Forall₂ (Describes symbols) (ofGroups symbols scope groups)
      (StubTree.groupElements groups)
  | [] => .nil
  | ⟨_, name, members⟩ :: rest => by
      rw [ofGroups, StubTree.groupElements]
      exact List.rel_append (describes_tree (scope ++ "." ++ name) members)
        (describes_groups scope rest)

end

theorem word_mem_classWords (kind : ClassKind) : kind.word ∈ classWords := by
  cases kind <;> simp [ClassKind.word, classWords]

theorem word_ne {kind : ClassKind} {word : String} (other : word ∉ classWords) :
    kind.word ≠ word := by
  rintro rfl
  exact other (word_mem_classWords kind)

theorem typealias_notMem_classWords : "typealias" ∉ classWords := by decide

theorem property_notMem_classWords : "property" ∉ classWords := by decide

theorem function_notMem_classWords : "function" ∉ classWords := by decide

section Kinds

variable {fragments : List Fragment} {elements : List StubElement}
  (described : List.Forall₂ (Describes symbols) fragments elements)

include described

/-- Fragments that are kept tell of the elements that are selected, in order. -/
private theorem forall₂_filter {α : Type} {tells : Fragment → α → Prop}
    {keep : Fragment → Bool} {select : StubElement → Option α}
    (each : ∀ fragment element, Describes symbols fragment element →
      (keep fragment ∧ ∃ stub, select element = some stub ∧ tells fragment stub) ∨
        (¬ keep fragment ∧ select element = none)) :
    List.Forall₂ tells (fragments.filter keep) (elements.filterMap select) := by
  induction described with
  | nil => exact .nil
  | cons described _ ih =>
      obtain ⟨kept, stub, selected, told⟩ | ⟨dropped, omitted⟩ := each _ _ described
      · simpa [kept, selected] using And.intro told ih
      · simpa [dropped, omitted] using ih

theorem forall₂_typealiases :
    List.Forall₂ (fun fragment stub => fragment = ofTypealias stub)
      (fragments.filter (·.kind = "typealias")) (elements.filterMap StubElement.typealias?) := by
  apply forall₂_filter described
  intro fragment element told
  cases told <;>
    simp [StubElement.typealias?, ofTypealias, ofClassHead, ofProperty, ofFunction, word_ne,
      typealias_notMem_classWords]

theorem forall₂_classes :
    List.Forall₂ (fun fragment stub => fragment = ofClassHead stub)
      (fragments.filter (·.kind ∈ classWords)) (elements.filterMap StubElement.class?) := by
  apply forall₂_filter described
  intro fragment element told
  cases told <;>
    simp [StubElement.class?, ofTypealias, ofClassHead, ofProperty, ofFunction,
      word_mem_classWords, typealias_notMem_classWords, property_notMem_classWords,
      function_notMem_classWords]

theorem forall₂_properties :
    List.Forall₂ (fun fragment stub => ∃ scope, fragment = ofProperty symbols scope stub)
      (fragments.filter (·.kind = "property")) (elements.filterMap StubElement.property?) := by
  apply forall₂_filter described
  intro fragment element told
  cases told <;>
    simp [StubElement.property?, ofTypealias, ofClassHead, ofProperty, ofFunction, word_ne,
      property_notMem_classWords]

theorem forall₂_functions :
    List.Forall₂ (fun fragment stub => ∃ scope, fragment = ofFunction symbols scope stub)
      (fragments.filter (·.kind = "function")) (elements.filterMap StubElement.function?) := by
  apply forall₂_filter described
  intro fragment element told
  cases told <;>
    simp [StubElement.function?, ofTypealias, ofClassHead, ofProperty, ofFunction, word_ne,
      function_notMem_classWords]

theorem length_eq_sum :
    fragments.length = (elements.filterMap StubElement.typealias?).length +
      (elements.filterMap StubElement.class?).length +
      (elements.filterMap StubElement.property?).length +
      (elements.filterMap StubElement.function?).length := by
  induction described with
  | nil => rfl
  | cons told _ ih =>
      cases told <;>
        simp only [List.length_cons, List.filterMap_cons, StubElement.typealias?,
          StubElement.class?, StubElement.property?, StubElement.function?, ih] <;>
        omega

end Kinds

end Fragment

namespace BindingModule

variable (module : BindingModule) (package : String)

/-- The fragments of the functions of a module, in order. -/
def functionFragments : List Fragment :=
  (module.fragments package).filter (·.kind = "function")

/-- The fragments of the properties of a module, in order. -/
def propertyFragments : List Fragment :=
  (module.fragments package).filter (·.kind = "property")

/-- A property fragment for each property, in order. -/
theorem forall₂_propertyFragments : List.Forall₂
    (fun fragment stub => ∃ scope, fragment = Fragment.ofProperty module.symbols scope stub)
    (module.propertyFragments package) module.stubs.allProperties := by
  rw [← StubTree.filterMap_property?]
  exact Fragment.forall₂_properties (Fragment.describes_tree _ module.stubs)

/-- A function fragment for each function, in order. -/
theorem forall₂_functionFragments : List.Forall₂
    (fun fragment stub => ∃ scope, fragment = Fragment.ofFunction module.symbols scope stub)
    (module.functionFragments package) module.stubs.allFunctions := by
  rw [← StubTree.filterMap_function?]
  exact Fragment.forall₂_functions (Fragment.describes_tree _ module.stubs)

/-- The numbers are those of all stubs; each stub that is no group has one fragment, and
those of functions and of properties are in the order of the stubs, with their symbols;
each function fragment with a symbol has an annotation. -/
structure WalksAgree : Prop where
  ids : module.stubs.ids.Perm
    (module.stubs.allClasses.map (·.id) ++ module.stubs.allTypealiases.map (·.id) ++
      module.stubs.allGroups.map (·.id) ++ module.stubs.allFunctions.map (·.id) ++
      module.stubs.allProperties.map (·.id))
  typealiases : (module.fragments package).filter (·.kind = "typealias") =
    module.stubs.allTypealiases.map Fragment.ofTypealias
  classes : (module.fragments package).filter (·.kind ∈ Fragment.classWords) =
    module.stubs.allClasses.map Fragment.ofClassHead
  properties : List.Forall₂
    (fun fragment stub => ∃ scope, fragment = Fragment.ofProperty module.symbols scope stub)
    (module.propertyFragments package) module.stubs.allProperties
  functions : List.Forall₂
    (fun fragment stub => ∃ scope, fragment = Fragment.ofFunction module.symbols scope stub)
    (module.functionFragments package) module.stubs.allFunctions
  getters : (module.propertyFragments package).map (·.symbol) =
    module.stubs.allProperties.map (module.symbols.getters.get? ·.id)
  symbols : (module.functionFragments package).map (·.symbol) =
    module.stubs.allFunctions.map (module.symbols.functions.get? ·.id)
  length : (module.fragments package).length =
    module.stubs.allTypealiases.length + module.stubs.allClasses.length +
      module.stubs.allProperties.length + module.stubs.allFunctions.length
  annotations : List.Forall₂
    (fun fragment annotation => ∃ scope stub symbol,
      fragment = Fragment.ofFunction module.symbols scope stub ∧ fragment.symbol = some symbol ∧
        annotation = Listing.callAnnotation symbol ++ " " ++ stub.name)
    ((module.functionFragments package).filter (·.symbol.isSome)) module.annotations

private theorem forall₂_annotations {symbols : SymbolTable} {fragments : List Fragment}
    {stubs : List FunctionStub}
    (described : List.Forall₂
      (fun fragment stub => ∃ scope, fragment = Fragment.ofFunction symbols scope stub)
      fragments stubs) :
    List.Forall₂
      (fun fragment annotation => ∃ scope stub symbol,
        fragment = Fragment.ofFunction symbols scope stub ∧ fragment.symbol = some symbol ∧
          annotation = Listing.callAnnotation symbol ++ " " ++ stub.name)
      (fragments.filter (·.symbol.isSome))
      (stubs.filterMap fun stub => (symbols.functions.get? stub.id).map fun symbol =>
        Listing.callAnnotation symbol ++ " " ++ stub.name) := by
  induction described with
  | nil => exact .nil
  | @cons fragment stub _ _ described _ ih =>
      obtain ⟨scope, rfl⟩ := described
      have carried : (Fragment.ofFunction symbols scope stub).symbol =
          symbols.functions.get? stub.id := rfl
      cases linked : symbols.functions.get? stub.id with
      | none => simpa [carried, linked] using ih
      | some symbol =>
          simp only [List.filter_cons, carried, linked, Option.isSome_some, if_true,
            List.filterMap_cons, Option.map_some]
          exact .cons ⟨scope, stub, symbol, rfl, carried.trans linked, rfl⟩ ih

theorem walksAgree : module.WalksAgree package := by
  have described : List.Forall₂ (Fragment.Describes module.symbols)
      (module.fragments package) module.stubs.allElements :=
    Fragment.describes_tree (module.packageName package) module.stubs
  have properties := module.forall₂_propertyFragments package
  have functions := module.forall₂_functionFragments package
  constructor
  case ids =>
    rw [List.perm_iff_count]
    intro id
    rw [StubTree.count_ids]
    simp only [List.count_append]
  case typealiases =>
    have told := Fragment.forall₂_typealiases described
    rw [← StubTree.filterMap_typealias?, map_eq_of_forall₂ (told.imp fun _ _ same => same.symm),
      List.map_id']
  case classes =>
    have told := Fragment.forall₂_classes described
    rw [← StubTree.filterMap_class?, map_eq_of_forall₂ (told.imp fun _ _ same => same.symm),
      List.map_id']
  case properties => exact properties
  case functions => exact functions
  case getters =>
    refine (map_eq_of_forall₂ (properties.imp fun fragment stub told => ?_)).symm
    obtain ⟨scope, rfl⟩ := told
    rfl
  case symbols =>
    refine (map_eq_of_forall₂ (functions.imp fun fragment stub told => ?_)).symm
    obtain ⟨scope, rfl⟩ := told
    rfl
  case length =>
    rw [← StubTree.filterMap_typealias?, ← StubTree.filterMap_class?,
      ← StubTree.filterMap_property?, ← StubTree.filterMap_function?]
    exact Fragment.length_eq_sum described
  case annotations => exact forall₂_annotations functions

end BindingModule

end NativeBindings
