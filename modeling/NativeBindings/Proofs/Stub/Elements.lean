import Mathlib.Data.List.Forall2
import Mathlib.Data.List.Perm.Subperm
import NativeBindings.Stub.Tree

namespace NativeBindings

/-! # Stub trees as lists of elements

Whoever walks a tree, for numbers, functions or properties, walks the list of its
elements.  Pushing elements only permutes that list, so what a build puts into a
tree is what its declarations gave, up to order.
-/

theorem map_eq_of_forall₂ {α β γ : Type} {first : α → γ} {second : β → γ} {items : List α}
    {others : List β}
    (all : List.Forall₂ (fun item other => second other = first item) items others) :
    others.map second = items.map first := by
  induction all with
  | nil => rfl
  | cons head _ ih => rw [List.map_cons, List.map_cons, head, ih]

namespace StubElement

/-- The numbers of an element and of all it holds. -/
def ids : StubElement → List StubId
  | .ofClass stub => stub.id :: (stub.properties.map (·.id) ++ stub.functions.map (·.id))
  | .ofFunction stub => [stub.id]
  | .ofProperty stub => [stub.id]
  | .ofTypealias stub => [stub.id]
  | .ofGroup stub => stub.id :: stub.members.ids

/-- The functions of an element, at any depth. -/
def functions : StubElement → List FunctionStub
  | .ofClass stub => stub.functions
  | .ofFunction stub => [stub]
  | .ofProperty _ | .ofTypealias _ => []
  | .ofGroup stub => stub.members.allFunctions

/-- The properties of an element, at any depth. -/
def properties : StubElement → List PropertyStub
  | .ofClass stub => stub.properties
  | .ofProperty stub => [stub]
  | .ofFunction _ | .ofTypealias _ => []
  | .ofGroup stub => stub.members.allProperties

def class? : StubElement → Option ClassStub
  | .ofClass stub => some stub
  | .ofFunction _ | .ofProperty _ | .ofTypealias _ | .ofGroup _ => none

def function? : StubElement → Option FunctionStub
  | .ofFunction stub => some stub
  | .ofClass _ | .ofProperty _ | .ofTypealias _ | .ofGroup _ => none

def property? : StubElement → Option PropertyStub
  | .ofProperty stub => some stub
  | .ofClass _ | .ofFunction _ | .ofTypealias _ | .ofGroup _ => none

def typealias? : StubElement → Option TypealiasStub
  | .ofTypealias stub => some stub
  | .ofClass _ | .ofFunction _ | .ofProperty _ | .ofGroup _ => none

def group? : StubElement → Option StubGroup
  | .ofGroup stub => some stub
  | .ofClass _ | .ofFunction _ | .ofProperty _ | .ofTypealias _ => none

end StubElement

namespace StubTree

mutual

/-- All classes, those of groups among them. -/
def allClasses : StubTree → List ClassStub
  | ⟨classes, _, _, _, groups⟩ => classes ++ groupClasses groups

def groupClasses : List StubGroup → List ClassStub
  | [] => []
  | ⟨_, _, members⟩ :: rest => members.allClasses ++ groupClasses rest

end

end StubTree

/-- The classes of an element, at any depth. -/
def StubElement.classes : StubElement → List ClassStub
  | .ofClass stub => [stub]
  | .ofFunction _ | .ofProperty _ | .ofTypealias _ => []
  | .ofGroup stub => stub.members.allClasses

namespace StubTree

variable (tree : StubTree)

/-- The elements of a tree, kind by kind. -/
def elements : List StubElement :=
  tree.classes.map .ofClass ++ tree.functions.map .ofFunction ++
    tree.properties.map .ofProperty ++ tree.typealiases.map .ofTypealias ++
    tree.groups.map .ofGroup

private theorem perm_behind {front before after : List StubElement} {item : StubElement}
    (perm : front.Perm (before ++ [item])) :
    (front ++ after).Perm (before ++ after ++ [item]) := by
  refine (perm.append_right after).trans ?_
  rw [List.append_assoc, List.append_assoc]
  exact List.perm_append_comm.append_left before

theorem elements_push (element : StubElement) :
    (tree.push element).elements.Perm (tree.elements ++ [element]) := by
  cases element with
  | ofClass stub =>
      refine perm_behind (perm_behind (perm_behind (perm_behind ?_)))
      simp [push]
  | ofFunction stub =>
      refine perm_behind (perm_behind (perm_behind ?_))
      simp [push]
  | ofProperty stub =>
      refine perm_behind (perm_behind ?_)
      simp [push]
  | ofTypealias stub =>
      refine perm_behind ?_
      simp [push]
  | ofGroup stub => simp [push, elements]

theorem elements_foldl_push (elements : List StubElement) :
    (elements.foldl push tree).elements.Perm (tree.elements ++ elements) := by
  induction elements generalizing tree with
  | nil => simp
  | cons element rest ih =>
      refine (ih (tree.push element)).trans ?_
      simpa using (tree.elements_push element).append_right rest

theorem groupIds_eq (groups : List StubGroup) :
    groupIds groups = groups.flatMap fun stub => stub.id :: stub.members.ids := by
  induction groups with
  | nil => rfl
  | cons stub rest ih =>
      obtain ⟨id, name, members⟩ := stub
      simp [groupIds, ih]

theorem groupFunctions_eq (groups : List StubGroup) :
    groupFunctions groups = groups.flatMap (·.members.allFunctions) := by
  induction groups with
  | nil => rfl
  | cons stub rest ih =>
      obtain ⟨id, name, members⟩ := stub
      simp [groupFunctions, ih]

theorem groupProperties_eq (groups : List StubGroup) :
    groupProperties groups = groups.flatMap (·.members.allProperties) := by
  induction groups with
  | nil => rfl
  | cons stub rest ih =>
      obtain ⟨id, name, members⟩ := stub
      simp [groupProperties, ih]

theorem groupClasses_eq (groups : List StubGroup) :
    groupClasses groups = groups.flatMap (·.members.allClasses) := by
  induction groups with
  | nil => rfl
  | cons stub rest ih =>
      obtain ⟨id, name, members⟩ := stub
      simp [groupClasses, ih]

theorem ids_eq_flatMap : tree.ids = tree.elements.flatMap (·.ids) := by
  obtain ⟨classes, functions, properties, typealiases, groups⟩ := tree
  simp [ids, elements, groupIds_eq, StubElement.ids, List.flatMap_map, ← List.map_eq_flatMap]

theorem flatMap_nothing {α β : Type} (list : List α) :
    list.flatMap (fun _ => ([] : List β)) = [] :=
  List.flatMap_eq_nil_iff.mpr fun _ _ => rfl

theorem allClasses_eq_flatMap : tree.allClasses = tree.elements.flatMap (·.classes) := by
  obtain ⟨classes, functions, properties, typealiases, groups⟩ := tree
  simp [allClasses, elements, groupClasses_eq, StubElement.classes, List.flatMap_map,
    flatMap_nothing]

theorem allFunctions_eq_flatMap : tree.allFunctions = tree.elements.flatMap (·.functions) := by
  obtain ⟨classes, functions, properties, typealiases, groups⟩ := tree
  simp [allFunctions, elements, groupFunctions_eq, StubElement.functions, List.flatMap_map,
    flatMap_nothing]

theorem allProperties_eq_flatMap :
    tree.allProperties = tree.elements.flatMap (·.properties) := by
  obtain ⟨classes, functions, properties, typealiases, groups⟩ := tree
  simp [allProperties, elements, groupProperties_eq, StubElement.properties, List.flatMap_map,
    flatMap_nothing]

theorem subperm_flatMap {α β : Type} {list : List α} {part whole : α → List β}
    (each : ∀ item, (part item).Subperm (whole item)) :
    (list.flatMap part).Subperm (list.flatMap whole) := by
  induction list with
  | nil => exact List.nil_subperm
  | cons item rest ih => exact (each item).append ih

private theorem subperm_classes (classes : List ClassStub) :
    ((classes.flatMap (·.functions)).map (·.id) ++
        (classes.flatMap (·.properties)).map (·.id)).Subperm
      (classes.flatMap fun stub =>
        stub.id :: (stub.properties.map (·.id) ++ stub.functions.map (·.id))) := by
  rw [List.map_flatMap, List.map_flatMap]
  refine (List.flatMap_append_perm classes _ _).subperm.trans (subperm_flatMap fun stub => ?_)
  exact List.perm_append_comm.subperm.trans (List.sublist_cons_self _ _).subperm

mutual

/-- No function and no property of a tree has the number of another. -/
theorem memberIds_subperm : (tree : StubTree) →
    (tree.allFunctions.map (·.id) ++ tree.allProperties.map (·.id)).Subperm tree.ids
  | ⟨classes, functions, properties, typealiases, groups⟩ => by
      refine List.subperm_ext_iff.mpr fun id _ => ?_
      have inClasses := (subperm_classes classes).count_le id
      have inGroups := (groupMemberIds_subperm groups).count_le id
      simp only [List.count_append] at inClasses inGroups
      simp only [allFunctions, allProperties, ids, List.map_append, List.count_append]
      omega

theorem groupMemberIds_subperm : (groups : List StubGroup) →
    ((groupFunctions groups).map (·.id) ++ (groupProperties groups).map (·.id)).Subperm
      (groupIds groups)
  | [] => List.nil_subperm
  | ⟨own, _, members⟩ :: rest => by
      refine List.subperm_ext_iff.mpr fun id _ => ?_
      have inMembers := (memberIds_subperm members).count_le id
      have inRest := (groupMemberIds_subperm rest).count_le id
      simp only [List.count_append] at inMembers inRest
      simp only [groupFunctions, groupProperties, groupIds, List.map_append, List.count_append,
        List.count_cons]
      omega

end

section Members

variable (functions : List FunctionStub) (properties : List PropertyStub)

@[simp] theorem elements_members :
    elements { (∅ : StubTree) with functions, properties } =
      functions.map .ofFunction ++ properties.map .ofProperty := by
  have nothing : (∅ : StubTree) = ⟨[], [], [], [], []⟩ := rfl
  simp [elements, nothing]

@[simp] theorem ids_members :
    ids { (∅ : StubTree) with functions, properties } =
      functions.map (·.id) ++ properties.map (·.id) := by
  rw [ids_eq_flatMap, elements_members]
  simp [List.flatMap_map, StubElement.ids, ← List.map_eq_flatMap]

@[simp] theorem allClasses_members :
    allClasses { (∅ : StubTree) with functions, properties } = [] := by
  rw [allClasses_eq_flatMap, elements_members]
  simp [List.flatMap_map, StubElement.classes, flatMap_nothing]

@[simp] theorem allFunctions_members :
    allFunctions { (∅ : StubTree) with functions, properties } = functions := by
  rw [allFunctions_eq_flatMap, elements_members]
  simp [List.flatMap_map, StubElement.functions, flatMap_nothing]

@[simp] theorem allProperties_members :
    allProperties { (∅ : StubTree) with functions, properties } = properties := by
  rw [allProperties_eq_flatMap, elements_members]
  simp [List.flatMap_map, StubElement.properties, flatMap_nothing]

end Members

end StubTree

end NativeBindings
